import Solva.Codec.Blocks
import Solva.FiatShamir.Chain
import Solva.Verifier.Sumcheck

/-!
# The challenges of the verifier

`transcript.rs`. The host's Keccak-256 is a parameter. The state of the transcript is the
last digest as a field element; a challenge is the low or the high half of its bytes.
-/

namespace Solva.Verifier

open Bn254 Codec BigEndian FiatShamir

/-- `keccak256` of the host. -/
abbrev Keccak : Type :=
  List UInt8 → Bytes32

/-! ## `transcript.rs` -/

/-- `Fr::from_array`. -/
def frFromArray (bytes : List UInt8) : Fr :=
  (ofBytes bytes : Fr)

/-- `push_coord_halves`. -/
def pushCoordHalves (buf coord : List UInt8) : List UInt8 :=
  -- the low 136 bits, then the rest
  let low := List.replicate 15 0 ++ coord.drop 15
  let high := List.replicate 17 0 ++ coord.take 15
  buf ++ low ++ high

/-- `push_point`. -/
def pushPoint (buf : List UInt8) (pt : G1Point) : List UInt8 :=
  pushCoordHalves (pushCoordHalves buf (pt.bytes.take 32)) (pt.bytes.drop 32)

/-- `split_challenge_from_be32`. -/
def splitChallengeFromBe32 (challengeBytes : Bytes32) : Fr × Fr :=
  (frFromArray (List.replicate 16 0 ++ challengeBytes.bytes.drop 16),
    frFromArray (List.replicate 16 0 ++ challengeBytes.bytes.take 16))

/-- `split_challenge`. -/
def splitChallenge (challenge : Fr) : Fr × Fr :=
  splitChallengeFromBe32 (frToBytes challenge)

/-- `to_bytes` of a field element, as a list. -/
def frBytes (x : Fr) : List UInt8 :=
  (frToBytes x).bytes

/-- `u64_to_be32`. -/
def u64ToBe32 (x : U64) : List UInt8 :=
  List.replicate 24 0 ++ toBytes 8 x.val

theorem u64ToBe32_length (x : U64) : (u64ToBe32 x).length = 32 := by
  rw [u64ToBe32, List.length_append, List.length_replicate, length_toBytes]

/-- What the transcript is started with, besides the proof. -/
structure Preamble where
  publicInputs : List UInt8
  circuitSize : U64
  publicInputsSize : U64
  pubInputsOffset : U64
  deriving DecidableEq

section Generate

variable (keccak : Keccak)

/-- `hash_to_fr`. -/
def hashToFr (bytes : List UInt8) : Fr :=
  fromBeBytesModOrder (keccak bytes)

/-- `generate_eta_challenge`. -/
def generateEtaChallenge (proof : Proof) (pre : Preamble) : Fr × Fr × Fr × Fr :=
  let data := u64ToBe32 pre.circuitSize ++ u64ToBe32 pre.publicInputsSize ++
    u64ToBe32 pre.pubInputsOffset ++ pre.publicInputs
  let data := (List.ofFn proof.pairingPointObject).foldl (fun data fr => data ++ frBytes fr) data
  let data := [proof.w1, proof.w2, proof.w3].foldl pushPoint data
  let first := hashToFr keccak data
  let (eta, etaTwo) := splitChallengeFromBe32 (frToBytes first)
  let second := hashToFr keccak (frBytes first)
  let (etaThree, _) := splitChallenge second
  (eta, etaTwo, etaThree, second)

/-- `generate_beta_and_gamma_challenges`. -/
def generateBetaAndGammaChallenges (previousChallenge : Fr) (proof : Proof) : Fr × Fr × Fr :=
  let data := [proof.lookupReadCounts, proof.lookupReadTags, proof.w4].foldl pushPoint
    (frBytes previousChallenge)
  let nextPreviousChallenge := hashToFr keccak data
  let (beta, gamma) := splitChallenge nextPreviousChallenge
  (beta, gamma, nextPreviousChallenge)

/-- The digests of `count` rounds that hash the last digest alone. -/
def rehash (previousChallenge : Fr) (count : Nat) : List Fr :=
  states (hashToFr keccak) frBytes previousChallenge (List.replicate count [])

/-- `generate_alpha_challenges`. -/
def generateAlphaChallenges (previousChallenge : Fr) (proof : Proof) :
    (Fin NUMBER_OF_ALPHAS → Fr) × Fr :=
  let data := [proof.lookupInverses, proof.zPerm].foldl pushPoint (frBytes previousChallenge)
  let first := hashToFr keccak data
  let pairs := first :: rehash keccak first (NUMBER_OF_ALPHAS / 2 - 1)
  -- the number is odd: the last one takes a digest of its own
  let last := hashToFr keccak (frBytes (pairs.getLastD first))
  let alphas := fun i : Fin NUMBER_OF_ALPHAS =>
    if i.val + 1 = NUMBER_OF_ALPHAS then (splitChallenge last).1
    else if i.val % 2 = 0 then (splitChallenge (pairs.getD (i.val / 2) 0)).1
    else (splitChallenge (pairs.getD (i.val / 2) 0)).2
  (alphas, last)

/-- `generate_relation_parameters_challenges`. -/
def generateRelationParametersChallenges (proof : Proof) (pre : Preamble) :
    RelationParameters Fr × Fr :=
  let (eta, etaTwo, etaThree, previousChallenge) := generateEtaChallenge keccak proof pre
  let (beta, gamma, nextPreviousChallenge) :=
    generateBetaAndGammaChallenges keccak previousChallenge proof
  (⟨eta, etaTwo, etaThree, beta, gamma, 0⟩, nextPreviousChallenge)

/-- `generate_gate_challenges`. -/
def generateGateChallenges (previousChallenge : Fr) : (Fin CONST_PROOF_SIZE_LOG_N → Fr) × Fr :=
  let digests := rehash keccak previousChallenge CONST_PROOF_SIZE_LOG_N
  (fun i => (splitChallenge (digests.getD i.val 0)).1, digests.getLastD previousChallenge)

/-- `generate_sumcheck_challenges`. -/
def generateSumcheckChallenges (proof : Proof) (previousChallenge : Fr) :
    (Fin CONST_PROOF_SIZE_LOG_N → Fr) × Fr :=
  let digests := states (hashToFr keccak) frBytes previousChallenge
    ((List.finRange CONST_PROOF_SIZE_LOG_N).map fun r =>
      (List.ofFn (proof.sumcheckUnivariates r)).flatMap frBytes)
  (fun r => (splitChallenge (digests.getD r.val 0)).1, digests.getLastD previousChallenge)

/-- `generate_rho_challenge`. -/
def generateRhoChallenge (proof : Proof) (previousChallenge : Fr) : Fr × Fr :=
  let data := (List.ofFn proof.sumcheckEvaluations).foldl (fun data e => data ++ frBytes e)
    (frBytes previousChallenge)
  let nextPreviousChallenge := hashToFr keccak data
  ((splitChallenge nextPreviousChallenge).1, nextPreviousChallenge)

/-- `generate_gemini_r_challenge`. -/
def generateGeminiRChallenge (proof : Proof) (previousChallenge : Fr) : Fr × Fr :=
  let data := (List.ofFn proof.geminiFoldComms).foldl pushPoint (frBytes previousChallenge)
  let nextPreviousChallenge := hashToFr keccak data
  ((splitChallenge nextPreviousChallenge).1, nextPreviousChallenge)

/-- `generate_shplonk_nu_challenge`. -/
def generateShplonkNuChallenge (proof : Proof) (previousChallenge : Fr) : Fr × Fr :=
  let data := (List.ofFn proof.geminiAEvaluations).foldl (fun data a => data ++ frBytes a)
    (frBytes previousChallenge)
  let nextPreviousChallenge := hashToFr keccak data
  ((splitChallenge nextPreviousChallenge).1, nextPreviousChallenge)

/-- `generate_shplonk_z_challenge`. -/
def generateShplonkZChallenge (proof : Proof) (previousChallenge : Fr) : Fr × Fr :=
  let data := pushPoint (frBytes previousChallenge) proof.shplonkQ
  let nextPreviousChallenge := hashToFr keccak data
  ((splitChallenge nextPreviousChallenge).1, nextPreviousChallenge)

/-- `generate_transcript`. -/
def generateTranscript (proof : Proof) (pre : Preamble) : Transcript :=
  let (relParams, previousChallenge) := generateRelationParametersChallenges keccak proof pre
  let (alphas, previousChallenge) := generateAlphaChallenges keccak previousChallenge proof
  let (gateChallenges, previousChallenge) := generateGateChallenges keccak previousChallenge
  let (uChallenges, previousChallenge) :=
    generateSumcheckChallenges keccak proof previousChallenge
  let (rho, previousChallenge) := generateRhoChallenge keccak proof previousChallenge
  let (geminiR, previousChallenge) := generateGeminiRChallenge keccak proof previousChallenge
  let (shplonkNu, previousChallenge) := generateShplonkNuChallenge keccak proof previousChallenge
  let (shplonkZ, _) := generateShplonkZChallenge keccak proof previousChallenge
  ⟨relParams, alphas, gateChallenges, uChallenges, rho, geminiR, shplonkNu, shplonkZ⟩

end Generate

/-! ## The messages -/

/-- The bytes that a point is absorbed as. -/
def pointBytes (pt : G1Point) : List UInt8 :=
  pushPoint [] pt

theorem pushPoint_eq (buf : List UInt8) (pt : G1Point) :
    pushPoint buf pt = buf ++ pointBytes pt := by
  simp only [pointBytes, pushPoint, pushCoordHalves, List.nil_append, List.append_assoc]

theorem foldl_append_eq {β : Type*} (code : β → List UInt8) (items : List β)
    (buf : List UInt8) :
    items.foldl (fun data x => data ++ code x) buf = buf ++ items.flatMap code := by
  induction items generalizing buf with
  | nil => exact (List.append_nil buf).symm
  | cons x items ih => rw [List.foldl_cons, ih, List.flatMap_cons, List.append_assoc]

theorem foldl_pushPoint (points : List G1Point) (buf : List UInt8) :
    points.foldl pushPoint buf = buf ++ points.flatMap pointBytes := by
  rw [← foldl_append_eq pointBytes points buf]
  exact congrFun (congrFun (congrArg _ (funext₂ pushPoint_eq)) buf) points

/-- The first message. -/
def preambleBytes (proof : Proof) (pre : Preamble) : List UInt8 :=
  u64ToBe32 pre.circuitSize ++ u64ToBe32 pre.publicInputsSize ++
    u64ToBe32 pre.pubInputsOffset ++ pre.publicInputs ++
    (List.ofFn proof.pairingPointObject).flatMap frBytes ++
    [proof.w1, proof.w2, proof.w3].flatMap pointBytes

/-- The messages up to the challenges of the gates. -/
def oinkMessages (proof : Proof) : List (List UInt8) :=
  [[], [proof.lookupReadCounts, proof.lookupReadTags, proof.w4].flatMap pointBytes,
      [proof.lookupInverses, proof.zPerm].flatMap pointBytes] ++
    List.replicate (NUMBER_OF_ALPHAS / 2 - 1) [] ++ [[]] ++
    List.replicate CONST_PROOF_SIZE_LOG_N []

/-- The messages of the sumcheck. -/
def sumcheckMessages (proof : Proof) : List (List UInt8) :=
  (List.finRange CONST_PROOF_SIZE_LOG_N).map fun r =>
    (List.ofFn (proof.sumcheckUnivariates r)).flatMap frBytes

/-- The messages of the opening. -/
def openingMessages (proof : Proof) : List (List UInt8) :=
  [(List.ofFn proof.sumcheckEvaluations).flatMap frBytes,
    (List.ofFn proof.geminiFoldComms).flatMap pointBytes,
    (List.ofFn proof.geminiAEvaluations).flatMap frBytes, pointBytes proof.shplonkQ]

/-- All messages after the first. -/
def messages (proof : Proof) : List (List UInt8) :=
  oinkMessages proof ++ sumcheckMessages proof ++ openingMessages proof

/-- The state after the first messages. -/
def stateAt (keccak : Keccak) (proof : Proof) (pre : Preamble) (count : Nat) : Fr :=
  last (hashToFr keccak) frBytes (hashToFr keccak (preambleBytes proof pre))
    ((messages proof).take count)

/-- The challenges, as halves of the states. -/
def challengesOf (state : Nat → Fr) : Transcript where
  relParams := ⟨(splitChallenge (state 0)).1, (splitChallenge (state 0)).2,
    (splitChallenge (state 1)).1, (splitChallenge (state 2)).1, (splitChallenge (state 2)).2, 0⟩
  alphas i :=
    if i.val + 1 = NUMBER_OF_ALPHAS then (splitChallenge (state 15)).1
    else if i.val % 2 = 0 then (splitChallenge (state (3 + i.val / 2))).1
    else (splitChallenge (state (3 + i.val / 2))).2
  gateChallenges i := (splitChallenge (state (16 + i.val))).1
  sumcheckUChallenges r := (splitChallenge (state (44 + r.val))).1
  rho := (splitChallenge (state 72)).1
  geminiR := (splitChallenge (state 73)).1
  shplonkNu := (splitChallenge (state 74)).1
  shplonkZ := (splitChallenge (state 75)).1

section Eq

variable {keccak : Keccak} {proof : Proof} {pre : Preamble}

theorem stateAt_zero : stateAt keccak proof pre 0 = hashToFr keccak (preambleBytes proof pre) :=
  rfl

/-- The state after one more message. -/
theorem stateAt_succ {count : Nat} {message : List UInt8}
    (at_count : (messages proof)[count]? = some message) :
    stateAt keccak proof pre (count + 1) =
      hashToFr keccak (frBytes (stateAt keccak proof pre count) ++ message) := by
  rw [stateAt, List.take_add_one, at_count, last_append]
  rfl

/-- The states of a run inside the messages. -/
theorem getD_run (keccak : Keccak) (pre : Preamble) {before run after : List (List UInt8)}
    {start : Nat} (split : messages proof = before ++ run ++ after)
    (offset : before.length = start) {i : Nat} (used : i < run.length) :
    (states (hashToFr keccak) frBytes (stateAt keccak proof pre start) run).getD i 0 =
      stateAt keccak proof pre (start + 1 + i) := by
  subst offset
  have front : (messages proof).take before.length = before := by
    rw [split, List.append_assoc, List.take_left]
  have through : (messages proof).take (before.length + 1 + i) = before ++ run.take (i + 1) := by
    rw [split, List.append_assoc, Nat.add_assoc, Nat.add_comm 1 i, List.take_length_add_append,
      List.take_append_of_le_length used]
  rw [getD_states used, stateAt, stateAt, front, through, last_append]

theorem getLastD_run (keccak : Keccak) (pre : Preamble) {before run after : List (List UInt8)}
    {start : Nat} (split : messages proof = before ++ run ++ after)
    (offset : before.length = start) :
    (states (hashToFr keccak) frBytes (stateAt keccak proof pre start) run).getLastD
        (stateAt keccak proof pre start) = stateAt keccak proof pre (start + run.length) := by
  subst offset
  have front : (messages proof).take before.length = before := by
    rw [split, List.append_assoc, List.take_left]
  have through : (messages proof).take (before.length + run.length) = before ++ run := by
    rw [split, List.take_append_of_le_length (by rw [List.length_append]), ← List.length_append,
      List.take_length]
  rw [getLastD_states, stateAt, stateAt, front, through, last_append]

theorem generateEtaChallenge_eq : generateEtaChallenge keccak proof pre =
    ((splitChallenge (stateAt keccak proof pre 0)).1,
      (splitChallenge (stateAt keccak proof pre 0)).2,
      (splitChallenge (stateAt keccak proof pre 1)).1, stateAt keccak proof pre 1) := by
  have second : stateAt keccak proof pre 1 = _ := stateAt_succ rfl
  rw [List.append_nil] at second
  simp only [generateEtaChallenge, foldl_append_eq, foldl_pushPoint, second, stateAt_zero]
  rfl

theorem generateBetaAndGammaChallenges_eq :
    generateBetaAndGammaChallenges keccak (stateAt keccak proof pre 1) proof =
      ((splitChallenge (stateAt keccak proof pre 2)).1,
        (splitChallenge (stateAt keccak proof pre 2)).2, stateAt keccak proof pre 2) := by
  have state : stateAt keccak proof pre 2 = _ := stateAt_succ rfl
  simp only [generateBetaAndGammaChallenges, foldl_pushPoint, state]

/-- The rounds of a run without messages. -/
theorem rehash_eq (keccak : Keccak) (pre : Preamble) {before after : List (List UInt8)}
    {start count : Nat} (split : messages proof = before ++ List.replicate count [] ++ after)
    (offset : before.length = start) :
    (∀ i < count, (rehash keccak (stateAt keccak proof pre start) count).getD i 0 =
        stateAt keccak proof pre (start + 1 + i)) ∧
      (rehash keccak (stateAt keccak proof pre start) count).getLastD
        (stateAt keccak proof pre start) = stateAt keccak proof pre (start + count) := by
  constructor
  · intro i used
    exact getD_run keccak pre split offset (by rwa [List.length_replicate])
  · rw [rehash, getLastD_run keccak pre split offset, List.length_replicate]

theorem generateAlphaChallenges_of_states {state : Nat → Fr} {previousChallenge : Fr}
    (first : hashToFr keccak (frBytes previousChallenge ++
      [proof.lookupInverses, proof.zPerm].flatMap pointBytes) = state 3)
    (rounds : ∀ i < 11, (rehash keccak (state 3) 11).getD i 0 = state (3 + 1 + i))
    (final : (rehash keccak (state 3) 11).getLastD (state 3) = state (3 + 11))
    (last : hashToFr keccak (frBytes (state 14)) = state 15) :
    generateAlphaChallenges keccak previousChallenge proof =
      ((challengesOf state).alphas, state 15) := by
  have at_pair (k : Nat) (small : k < 12) :
      (state 3 :: rehash keccak (state 3) 11).getD k 0 = state (3 + k) := by
    cases k with
    | zero => rfl
    | succ k =>
        rw [List.getD_cons_succ, rounds k (Nat.lt_of_succ_lt_succ small), Nat.add_comm k 1,
          Nat.add_assoc]
  have tail : (state 3 :: rehash keccak (state 3) 11).getLastD (state 3) = state 14 := by
    rw [List.getLastD_cons, final]
  have alphas (i : Fin NUMBER_OF_ALPHAS) :
      (generateAlphaChallenges keccak previousChallenge proof).1 i =
        (challengesOf state).alphas i := by
    have width : i.val < 25 := i.isLt
    simp only [generateAlphaChallenges, foldl_pushPoint, first, challengesOf]
    by_cases end_ : i.val + 1 = NUMBER_OF_ALPHAS
    · rw [if_pos end_, if_pos end_, ← last, ← tail]
      rfl
    · have inside : i.val + 1 ≠ 25 := end_
      rw [if_neg end_, if_neg end_, ← at_pair (i.val / 2) (by omega)]
      rfl
  apply Prod.ext (funext alphas)
  simp only [generateAlphaChallenges, foldl_pushPoint, first]
  rw [← last, ← tail]
  rfl

theorem generateGateChallenges_of_states {state : Nat → Fr}
    (rounds : ∀ i < 28, (rehash keccak (state 15) 28).getD i 0 = state (15 + 1 + i))
    (final : (rehash keccak (state 15) 28).getLastD (state 15) = state (15 + 28)) :
    generateGateChallenges keccak (state 15) = ((challengesOf state).gateChallenges, state 43) := by
  apply Prod.ext
  · funext i
    exact congrArg (fun digest => (splitChallenge digest).1) (rounds i.val i.isLt)
  · exact final

theorem generateSumcheckChallenges_of_states {state : Nat → Fr}
    (rounds : ∀ r < 28, (states (hashToFr keccak) frBytes (state 43)
      (sumcheckMessages proof)).getD r 0 = state (43 + 1 + r))
    (final : (states (hashToFr keccak) frBytes (state 43)
      (sumcheckMessages proof)).getLastD (state 43) = state (43 + 28)) :
    generateSumcheckChallenges keccak proof (state 43) =
      ((challengesOf state).sumcheckUChallenges, state 71) := by
  apply Prod.ext
  · funext r
    exact congrArg (fun digest => (splitChallenge digest).1) (rounds r.val r.isLt)
  · exact final

theorem length_oinkMessages : (oinkMessages proof).length = 43 :=
  rfl

theorem length_sumcheckMessages : (sumcheckMessages proof).length = 28 := by
  rw [sumcheckMessages, List.length_map, List.length_finRange]

/-- A message of the opening is behind those of the sumcheck. -/
theorem opening_message {k : Nat} :
    (messages proof)[k + 71]? = (openingMessages proof)[k]? := by
  have front : (oinkMessages proof ++ sumcheckMessages proof).length = 71 := by
    rw [List.length_append, length_oinkMessages, length_sumcheckMessages]
  rw [messages, List.getElem?_append_right (by omega), front, Nat.add_sub_cancel]

theorem generateAlphaChallenges_eq :
    generateAlphaChallenges keccak (stateAt keccak proof pre 2) proof =
      ((challengesOf (stateAt keccak proof pre)).alphas, stateAt keccak proof pre 15) := by
  have split : messages proof = (oinkMessages proof).take 3 ++ List.replicate 11 [] ++
      ([[]] ++ List.replicate 28 [] ++ sumcheckMessages proof ++ openingMessages proof) := rfl
  have first : stateAt keccak proof pre 3 = hashToFr keccak (frBytes (stateAt keccak proof pre 2) ++
      [proof.lookupInverses, proof.zPerm].flatMap pointBytes) := stateAt_succ rfl
  have last : stateAt keccak proof pre 15 =
      hashToFr keccak (frBytes (stateAt keccak proof pre 14) ++ []) := stateAt_succ rfl
  rw [List.append_nil] at last
  have run := rehash_eq keccak pre split (by rfl : _ = 3)
  exact generateAlphaChallenges_of_states first.symm run.1 run.2 last.symm

theorem generateGateChallenges_eq :
    generateGateChallenges keccak (stateAt keccak proof pre 15) =
      ((challengesOf (stateAt keccak proof pre)).gateChallenges, stateAt keccak proof pre 43) := by
  have split : messages proof = (oinkMessages proof).take 15 ++ List.replicate 28 [] ++
      (sumcheckMessages proof ++ openingMessages proof) := rfl
  have run := rehash_eq keccak pre split (by rfl : _ = 15)
  exact generateGateChallenges_of_states run.1 run.2

theorem generateSumcheckChallenges_eq :
    generateSumcheckChallenges keccak proof (stateAt keccak proof pre 43) =
      ((challengesOf (stateAt keccak proof pre)).sumcheckUChallenges,
        stateAt keccak proof pre 71) := by
  have split : messages proof = oinkMessages proof ++ sumcheckMessages proof ++
      openingMessages proof := rfl
  have rounds (r : Nat) (used : r < 28) := getD_run keccak pre split length_oinkMessages
    (used.trans_eq length_sumcheckMessages.symm)
  have final := getLastD_run keccak pre split length_oinkMessages
  rw [length_sumcheckMessages] at final
  exact generateSumcheckChallenges_of_states rounds final

theorem stateAt_opening {k : Nat} {message : List UInt8}
    (at_k : (openingMessages proof)[k]? = some message) :
    stateAt keccak proof pre (k + 71 + 1) =
      hashToFr keccak (frBytes (stateAt keccak proof pre (k + 71)) ++ message) :=
  stateAt_succ (opening_message.trans at_k)

/-- The challenges are halves of the states of one chain. -/
theorem generateTranscript_eq :
    generateTranscript keccak proof pre = challengesOf (stateAt keccak proof pre) := by
  have rho : stateAt keccak proof pre 72 = _ := stateAt_opening (by rfl : _[0]? = _)
  have gemini : stateAt keccak proof pre 73 = _ := stateAt_opening (by rfl : _[1]? = _)
  have nu : stateAt keccak proof pre 74 = _ := stateAt_opening (by rfl : _[2]? = _)
  have z : stateAt keccak proof pre 75 = _ := stateAt_opening (by rfl : _[3]? = _)
  simp only [generateTranscript, generateRelationParametersChallenges, generateEtaChallenge_eq,
    generateBetaAndGammaChallenges_eq, generateAlphaChallenges_eq, generateGateChallenges_eq,
    generateSumcheckChallenges_eq, generateRhoChallenge, generateGeminiRChallenge,
    generateShplonkNuChallenge, generateShplonkZChallenge, foldl_append_eq, foldl_pushPoint,
    pushPoint_eq, ← rho, ← gemini, ← nu, ← z]
  rfl

end Eq

end Solva.Verifier
