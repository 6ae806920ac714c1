import Solva.Verifier.Transcript

/-!
# Reading proofs and keys

`utils.rs`. A proof is 456 words of 32 bytes without any framing. A coordinate of a point
takes two words of which 17 and 15 bytes are read, and a scalar is reduced, so more than
one string reads as the same proof; the words within their bounds are the encoding.
-/

namespace Solva.Verifier

open Bn254 Codec BigEndian

/-! ## `utils.rs` -/

/-- `PROOF_BYTES`. -/
def PROOF_BYTES : Nat :=
  456 * 32

def PAIRING_OBJ_BYTES : Nat :=
  PAIRING_POINTS_SIZE * 32

def PROOF_HEAD_G1_BYTES : Nat :=
  8 * 128

def SUMCHECK_UNIV_BYTES : Nat :=
  CONST_PROOF_SIZE_LOG_N * BATCHED_RELATION_PARTIAL_LENGTH * 32

def SUMCHECK_EVAL_BYTES : Nat :=
  NUMBER_OF_ENTITIES * 32

def GEMINI_FOLD_COMMS_BYTES : Nat :=
  (CONST_PROOF_SIZE_LOG_N - 1) * 128

def GEMINI_A_EVAL_BYTES : Nat :=
  CONST_PROOF_SIZE_LOG_N * 32

def FINAL_TWO_G1_BYTES : Nat :=
  2 * 128

/-- `read_bytes`: the next bytes, and those behind them. -/
def readBytes (count : Nat) (bytes : List UInt8) : List UInt8 × List UInt8 :=
  bytes.splitAt count

/-- `combine_limbs`. -/
def combineLimbs (lo hi : List UInt8) : List UInt8 :=
  hi.drop 17 ++ lo.drop 15

/-- `fr_word32`. -/
def frWord32 (blob : List UInt8) (wordIdx : Nat) : Fr :=
  frFromArray (block 32 blob wordIdx)

/-- `G1Point::from_bytes`, on 64 bytes. -/
def g1FromBytes (bytes : List UInt8) : G1Point :=
  BytesN.ofNat 64 (ofBytes bytes)

/-- `g1_from_proof_chunk128`. -/
def g1FromProofChunk128 (b : List UInt8) : G1Point :=
  g1FromBytes (combineLimbs (block 32 b 0) (block 32 b 1) ++
    combineLimbs (block 32 b 2) (block 32 b 3))

/-- `g1_from_proof_blob_at`. -/
def g1FromProofBlobAt (blob : List UInt8) (pointIdx : Nat) : G1Point :=
  g1FromProofChunk128 (block 128 blob pointIdx)

/-- `load_proof`. -/
def loadProof (proofBytes : List UInt8) : Except String Proof :=
  if proofBytes.length ≠ PROOF_BYTES then .error "proof bytes length mismatch"
  else
    let ppo := readBytes PAIRING_OBJ_BYTES proofBytes
    let g1Head := readBytes PROOF_HEAD_G1_BYTES ppo.2
    let su := readBytes SUMCHECK_UNIV_BYTES g1Head.2
    let se := readBytes SUMCHECK_EVAL_BYTES su.2
    let gf := readBytes GEMINI_FOLD_COMMS_BYTES se.2
    let ga := readBytes GEMINI_A_EVAL_BYTES gf.2
    let tailG1 := readBytes FINAL_TWO_G1_BYTES ga.2
    .ok {
      pairingPointObject := fun i => frWord32 ppo.1 i
      w1 := g1FromProofBlobAt g1Head.1 0
      w2 := g1FromProofBlobAt g1Head.1 1
      w3 := g1FromProofBlobAt g1Head.1 2
      lookupReadCounts := g1FromProofBlobAt g1Head.1 3
      lookupReadTags := g1FromProofBlobAt g1Head.1 4
      w4 := g1FromProofBlobAt g1Head.1 5
      lookupInverses := g1FromProofBlobAt g1Head.1 6
      zPerm := g1FromProofBlobAt g1Head.1 7
      sumcheckUnivariates := fun r c =>
        frWord32 su.1 (r.val * BATCHED_RELATION_PARTIAL_LENGTH + c.val)
      sumcheckEvaluations := fun i => frWord32 se.1 i
      geminiFoldComms := fun i => g1FromProofBlobAt gf.1 i
      geminiAEvaluations := fun i => frWord32 ga.1 i
      shplonkQ := g1FromProofChunk128 (tailG1.1.take 128)
      kzgQuotient := g1FromProofChunk128 (tailG1.1.drop 128) }

/-- `VkLoadError`. -/
inductive VkLoadError where
  | wrongLength
  | invalidParameters
  deriving DecidableEq

/-- `HEADER_WORDS * 8 + POINT_BLOB_LEN`. -/
def EXPECTED_LEN : Nat :=
  4 * 8 + NUM_POINTS * 64

/-- `u64::from_be_bytes`, on eight bytes. -/
def u64FromBeBytes (bytes : List UInt8) : U64 :=
  Fin.ofNat (2 ^ 64) (ofBytes bytes)

/-- `load_vk_from_bytes`. -/
def loadVkFromBytes (bytes : List UInt8) : Except VkLoadError VerificationKey :=
  if bytes.length ≠ EXPECTED_LEN then .error .wrongLength
  else
    let circuitSize := u64FromBeBytes (block 8 bytes 0)
    let logCircuitSize := u64FromBeBytes (block 8 bytes 1)
    let publicInputsSize := u64FromBeBytes (block 8 bytes 2)
    let pubInputsOffset := u64FromBeBytes (block 8 bytes 3)
    if logCircuitSize.val = 0 ∨ logCircuitSize.val > CONST_PROOF_SIZE_LOG_N then
      .error .invalidParameters
    else if publicInputsSize.val < PAIRING_POINTS_SIZE then .error .invalidParameters
    else if circuitSize.val ≠ 2 ^ logCircuitSize.val then .error .invalidParameters
    else if pubInputsOffset > circuitSize then .error .invalidParameters
    else
      let pointsBytes := bytes.drop (4 * 8)
      .ok ⟨circuitSize, logCircuitSize, publicInputsSize, pubInputsOffset,
        fun i => g1FromBytes (block 64 pointsBytes i)⟩

/-! ## Words and points -/

theorem frBytes_length (x : Fr) : (frBytes x).length = 32 :=
  (frToBytes x).length_eq

theorem frBytes_injective : Function.Injective frBytes := by
  intro x y same
  exact frToBytes_injective (BytesN.eq_of_bytes_eq same)

theorem frFromArray_frBytes (x : Fr) : frFromArray (frBytes x) = x :=
  fromBeBytesModOrder_frToBytes x

/-- A word is the encoding of its scalar when it is reduced. -/
theorem frBytes_frFromArray_iff {word : List UInt8} (width : word.length = 32) :
    frBytes (frFromArray word) = word ↔ ofBytes word < p := by
  have value : (frFromArray word).val = ofBytes word % p := ZMod.val_natCast p (ofBytes word)
  constructor
  · intro same
    rw [← same]
    exact canonical_frToBytes (frFromArray word)
  · intro reduced
    rw [frBytes, frToBytes, value, Nat.mod_eq_of_lt reduced, BytesN.ofNat, ← width]
    exact toBytes_ofBytes word

/-- A number below a power of the base has zeros in front. -/
theorem ofBytes_lt_iff {bytes : List UInt8} {front : Nat} (inside : front ≤ bytes.length) :
    ofBytes bytes < 256 ^ (bytes.length - front) ↔
      bytes.take front = List.replicate front 0 := by
  have value : ofBytes bytes =
      256 ^ (bytes.length - front) * ofBytes (bytes.take front) + ofBytes (bytes.drop front) := by
    rw [← List.length_drop, ← ofBytes_append, List.take_append_drop]
  have rest := ofBytes_lt (bytes.drop front)
  rw [List.length_drop] at rest
  constructor
  · intro small
    apply eq_of_ofBytes_eq
    · rw [List.length_take, List.length_replicate, Nat.min_eq_left inside]
    · rw [ofBytes_replicate_zero]
      by_contra positive
      have grows := Nat.le_mul_of_pos_right (256 ^ (bytes.length - front))
        (Nat.pos_of_ne_zero positive)
      omega
  · intro zeros
    rw [value, zeros, ofBytes_replicate_zero, Nat.mul_zero, Nat.zero_add]
    exact rest

theorem g1FromBytes_bytes (pt : G1Point) : g1FromBytes pt.bytes = pt :=
  BytesN.ofNat_toNat pt

theorem bytes_g1FromBytes {bytes : List UInt8} (width : bytes.length = 64) :
    (g1FromBytes bytes).bytes = bytes := by
  rw [g1FromBytes, BytesN.ofNat, ← width]
  exact toBytes_ofBytes bytes

/-- A point of given limbs. -/
theorem pointBytes_limbs {xLo xHi yLo yHi : List UInt8} (xLo_width : xLo.length = 17)
    (xHi_width : xHi.length = 15) (yLo_width : yLo.length = 17) (yHi_width : yHi.length = 15) :
    pointBytes (g1FromBytes ((xHi ++ xLo) ++ (yHi ++ yLo))) =
      (List.replicate 15 0 ++ xLo) ++ ((List.replicate 17 0 ++ xHi) ++
        ((List.replicate 15 0 ++ yLo) ++ (List.replicate 17 0 ++ yHi))) := by
  have x_width : (xHi ++ xLo).length = 32 := by rw [List.length_append, xLo_width, xHi_width]
  have y_width : (yHi ++ yLo).length = 32 := by rw [List.length_append, yLo_width, yHi_width]
  have width : ((xHi ++ xLo) ++ (yHi ++ yLo)).length = 64 := by
    rw [List.length_append, x_width, y_width]
  rw [pointBytes, pushPoint, bytes_g1FromBytes width, List.take_left' x_width,
    List.drop_left' x_width, pushCoordHalves, pushCoordHalves, List.take_left' xHi_width,
    List.drop_left' xHi_width, List.take_left' yHi_width, List.drop_left' yHi_width]
  simp only [List.nil_append, List.append_assoc]

/-- The words of a block of four. -/
theorem four_words {b : List UInt8} (width : b.length = 128) :
    b = block 32 b 0 ++ (block 32 b 1 ++ (block 32 b 2 ++ block 32 b 3)) := by
  have run : (List.range 4).flatMap (block 32 b) = b := flatMap_block width
  calc b = (List.range 4).flatMap (block 32 b) := run.symm
    _ = block 32 b 0 ++ (block 32 b 1 ++ (block 32 b 2 ++ (block 32 b 3 ++ []))) := rfl
    _ = _ := by rw [List.append_nil]

/-- A point and its limbs. -/
theorem exists_limbs (pt : G1Point) : ∃ xLo xHi yLo yHi : List UInt8,
    (xLo.length = 17 ∧ xHi.length = 15 ∧ yLo.length = 17 ∧ yHi.length = 15) ∧
      pt = g1FromBytes ((xHi ++ xLo) ++ (yHi ++ yLo)) := by
  refine ⟨(pt.bytes.take 32).drop 15, (pt.bytes.take 32).take 15, (pt.bytes.drop 32).drop 15,
    (pt.bytes.drop 32).take 15, ?_, ?_⟩
  · simp [pt.length_eq]
  · rw [List.take_append_drop, List.take_append_drop, List.take_append_drop, g1FromBytes_bytes]

theorem pointBytes_length (pt : G1Point) : (pointBytes pt).length = 128 := by
  rcases exists_limbs pt with
    ⟨xLo, xHi, yLo, yHi, ⟨xLo_width, xHi_width, yLo_width, yHi_width⟩, rfl⟩
  rw [pointBytes_limbs xLo_width xHi_width yLo_width yHi_width]
  simp [xLo_width, xHi_width, yLo_width, yHi_width]

theorem g1FromProofChunk128_pointBytes (pt : G1Point) :
    g1FromProofChunk128 (pointBytes pt) = pt := by
  rcases exists_limbs pt with
    ⟨xLo, xHi, yLo, yHi, ⟨xLo_width, xHi_width, yLo_width, yHi_width⟩, rfl⟩
  have low {limb : List UInt8} (width : limb.length = 17) :
      (List.replicate 15 0 ++ limb).length = 32 := by
    rw [List.length_append, List.length_replicate, width]
  have high {limb : List UInt8} (width : limb.length = 15) :
      (List.replicate 17 0 ++ limb).length = 32 := by
    rw [List.length_append, List.length_replicate, width]
  have last : block 32 (List.replicate 17 0 ++ yHi) 0 = List.replicate 17 0 ++ yHi := by
    rw [block, Nat.mul_zero, List.drop_zero, List.take_of_length_le (high yHi_width).le]
  rw [pointBytes_limbs xLo_width xHi_width yLo_width yHi_width, g1FromProofChunk128,
    block_zero (low xLo_width), block_succ (low xLo_width), block_zero (high xHi_width),
    block_succ (low xLo_width), block_succ (high xHi_width), block_zero (low yLo_width),
    block_succ (low xLo_width), block_succ (high xHi_width), block_succ (low yLo_width), last,
    combineLimbs, combineLimbs]
  simp only [List.drop_left' List.length_replicate]

theorem pointBytes_injective : Function.Injective pointBytes :=
  Function.LeftInverse.injective g1FromProofChunk128_pointBytes

/-- What the words of a point stay below when they are limbs. -/
def limbBounds : List Nat :=
  [256 ^ 17, 256 ^ 15, 256 ^ 17, 256 ^ 15]

/-- Words below their bounds. -/
def Within (bounds : List Nat) (words : List (List UInt8)) : Prop :=
  List.Forall₂ (fun bound word => ofBytes word < bound) bounds words

theorem pad_length {word : List UInt8} {front : Nat} (inside : front ≤ word.length) :
    (List.replicate front 0 ++ word.drop front).length = word.length := by
  rw [List.length_append, List.length_replicate, List.length_drop, Nat.add_sub_cancel' inside]

theorem pad_iff {word : List UInt8} {front : Nat} (inside : front ≤ word.length) :
    List.replicate front 0 ++ word.drop front = word ↔
      ofBytes word < 256 ^ (word.length - front) := by
  rw [ofBytes_lt_iff inside]
  constructor
  · intro same
    have parts := same.trans (List.take_append_drop front word).symm
    exact (List.append_cancel_right parts).symm
  · intro zeros
    rw [← zeros, List.take_append_drop]

/-- A block is the encoding of its point when its words are limbs. -/
theorem pointBytes_chunk_iff {b : List UInt8} (width : b.length = 128) :
    pointBytes (g1FromProofChunk128 b) = b ↔ Within limbBounds (blocks 32 4 b) := by
  have word_width (i : Nat) (small : i < 4) : (block 32 b i).length = 32 :=
    length_block (by omega)
  have low_width (i : Nat) (small : i < 4) : ((block 32 b i).drop 15).length = 17 := by
    rw [List.length_drop, word_width i small]
  have high_width (i : Nat) (small : i < 4) : ((block 32 b i).drop 17).length = 15 := by
    rw [List.length_drop, word_width i small]
  have low (i : Nat) (small : i < 4) :
      List.replicate 15 0 ++ (block 32 b i).drop 15 = block 32 b i ↔
        ofBytes (block 32 b i) < 256 ^ 17 := by
    rw [pad_iff (by rw [word_width i small]; decide), word_width i small]
  have high (i : Nat) (small : i < 4) :
      List.replicate 17 0 ++ (block 32 b i).drop 17 = block 32 b i ↔
        ofBytes (block 32 b i) < 256 ^ 15 := by
    rw [pad_iff (by rw [word_width i small]; decide), word_width i small]
  have encoded := pointBytes_limbs (low_width 0 (by decide)) (high_width 1 (by decide))
    (low_width 2 (by decide)) (high_width 3 (by decide))
  have words := four_words width
  have inside (i : Nat) (small : i < 4) {front : Nat} (fits : front ≤ 32) :
      front ≤ (block 32 b i).length := by
    rwa [word_width i small]
  rw [g1FromProofChunk128, combineLimbs, combineLimbs, encoded]
  constructor
  · intro same
    have parts := same.trans words
    rcases List.append_inj parts (pad_length (inside 0 (by decide) (by decide)))
      with ⟨first, rest⟩
    rcases List.append_inj rest (pad_length (inside 1 (by decide) (by decide)))
      with ⟨second, rest⟩
    rcases List.append_inj rest (pad_length (inside 2 (by decide) (by decide)))
      with ⟨third, fourth⟩
    exact .cons ((low 0 (by decide)).mp first) (.cons ((high 1 (by decide)).mp second)
      (.cons ((low 2 (by decide)).mp third) (.cons ((high 3 (by decide)).mp fourth) .nil)))
  · intro within
    have parts : List.Forall₂ (fun bound word => ofBytes word < bound)
        [256 ^ 17, 256 ^ 15, 256 ^ 17, 256 ^ 15]
        [block 32 b 0, block 32 b 1, block 32 b 2, block 32 b 3] := within
    rw [List.forall₂_cons, List.forall₂_cons, List.forall₂_cons, List.forall₂_cons] at parts
    rcases parts with ⟨first, second, third, fourth, _⟩
    rw [(low 0 (by decide)).mpr first, (high 1 (by decide)).mpr second,
      (low 2 (by decide)).mpr third, (high 3 (by decide)).mpr fourth]
    exact words.symm

/-! ## Runs of words and points -/

theorem within_append {bounds bounds' : List Nat} {words words' : List (List UInt8)}
    (count : bounds.length = words.length) :
    Within (bounds ++ bounds') (words ++ words') ↔ Within bounds words ∧ Within bounds' words' := by
  induction bounds generalizing words with
  | nil =>
      rw [List.eq_nil_of_length_eq_zero count.symm]
      exact (and_iff_right List.Forall₂.nil).symm
  | cons bound bounds ih =>
      cases words with
      | nil => cases count
      | cons word words =>
          rw [Within, List.cons_append, List.cons_append, List.forall₂_cons, ← Within,
            ih (Nat.succ.inj count), Within, Within, Within, List.forall₂_cons, and_assoc]

/-- The same bounds for each item. -/
theorem within_flatMap {β : Type*} {bounds : List Nat} {words : β → List (List UInt8)}
    (count : ∀ x, bounds.length = (words x).length) (items : List β) :
    Within (List.replicate items.length bounds).flatten (items.flatMap words) ↔
      ∀ x ∈ items, Within bounds (words x) := by
  induction items with
  | nil => exact iff_of_true .nil (fun x mem => absurd mem List.not_mem_nil)
  | cons x items ih =>
      rw [List.length_cons, List.replicate_succ, List.flatten_cons, List.flatMap_cons,
        within_append (count x), ih, List.forall_mem_cons]

section Runs

variable {count : Nat} {run : List UInt8}

/-- A run of words is the encoding of its scalars when all are reduced. -/
theorem words_iff (fits : run.length = 32 * count) :
    ((blocks 32 count run).map frFromArray).flatMap frBytes = run ↔
      Within (List.replicate count [p]).flatten (blocks 32 count run) := by
  have single : Within (List.replicate (blocks 32 count run).length [p]).flatten
      ((blocks 32 count run).flatMap fun word => [word]) ↔ _ :=
    within_flatMap (fun _ => rfl) (blocks 32 count run)
  rw [length_blocks, List.flatMap_singleton'] at single
  rw [flatMap_decode_iff frBytes_length fits, single]
  apply forall₂_congr
  intro word mem
  rw [frBytes_frFromArray_iff (length_of_mem_blocks fits mem), Within, List.forall₂_cons]
  exact (and_iff_left .nil).symm

/-- A run of points is the encoding of its points when all words are limbs. -/
theorem points_iff (fits : run.length = 128 * count) :
    ((blocks 128 count run).map g1FromProofChunk128).flatMap pointBytes = run ↔
      Within (List.replicate count limbBounds).flatten (blocks 32 (4 * count) run) := by
  have widths (b : List UInt8) : limbBounds.length = (blocks 32 4 b).length :=
    (length_blocks 4 b).symm
  have each := within_flatMap widths (blocks 128 count run)
  rw [length_blocks, blocks_blocks 4 count run] at each
  rw [flatMap_decode_iff pointBytes_length fits, each]
  apply forall₂_congr
  intro b mem
  exact pointBytes_chunk_iff (length_of_mem_blocks fits mem)

end Runs

/-! ## The parts of a proof -/

/-- The seven parts of a proof string. -/
structure Parts where
  ppo : List UInt8
  g1Head : List UInt8
  su : List UInt8
  se : List UInt8
  gf : List UInt8
  ga : List UInt8
  tailG1 : List UInt8
  ppo_length : ppo.length = 32 * 16
  g1Head_length : g1Head.length = 128 * 8
  su_length : su.length = 32 * 224
  se_length : se.length = 32 * 40
  gf_length : gf.length = 128 * 27
  ga_length : ga.length = 32 * 28
  tailG1_length : tailG1.length = 128 * 2

namespace Parts

def join (parts : Parts) : List UInt8 :=
  parts.ppo ++ (parts.g1Head ++ (parts.su ++ (parts.se ++ (parts.gf ++ (parts.ga ++
    parts.tailG1)))))

theorem length_join (parts : Parts) : parts.join.length = PROOF_BYTES := by
  simp only [join, List.length_append, parts.ppo_length, parts.g1Head_length, parts.su_length,
    parts.se_length, parts.gf_length, parts.ga_length, parts.tailG1_length]
  rfl

/-- The proof that is read from the parts. -/
def proof (parts : Parts) : Proof where
  pairingPointObject i := frWord32 parts.ppo i
  w1 := g1FromProofBlobAt parts.g1Head 0
  w2 := g1FromProofBlobAt parts.g1Head 1
  w3 := g1FromProofBlobAt parts.g1Head 2
  lookupReadCounts := g1FromProofBlobAt parts.g1Head 3
  lookupReadTags := g1FromProofBlobAt parts.g1Head 4
  w4 := g1FromProofBlobAt parts.g1Head 5
  lookupInverses := g1FromProofBlobAt parts.g1Head 6
  zPerm := g1FromProofBlobAt parts.g1Head 7
  sumcheckUnivariates r c := frWord32 parts.su (r.val * BATCHED_RELATION_PARTIAL_LENGTH + c.val)
  sumcheckEvaluations i := frWord32 parts.se i
  geminiFoldComms i := g1FromProofBlobAt parts.gf i
  geminiAEvaluations i := frWord32 parts.ga i
  shplonkQ := g1FromProofChunk128 (parts.tailG1.take 128)
  kzgQuotient := g1FromProofChunk128 (parts.tailG1.drop 128)

theorem proof_congr {parts other : Parts}
    (ppo : ∀ i : Fin PAIRING_POINTS_SIZE, frWord32 parts.ppo i = frWord32 other.ppo i)
    (rest : parts.g1Head = other.g1Head ∧ parts.su = other.su ∧ parts.se = other.se ∧
      parts.gf = other.gf ∧ parts.ga = other.ga ∧ parts.tailG1 = other.tailG1) :
    parts.proof = other.proof := by
  rcases rest with ⟨g1Head, su, se, gf, ga, tailG1⟩
  rw [proof, proof, funext ppo, g1Head, su, se, gf, ga, tailG1]

theorem exists_ppo (parts : Parts) {ppo : List UInt8} (ppo_length : ppo.length = 32 * 16) :
    ∃ other : Parts, other.ppo = ppo ∧ other.g1Head = parts.g1Head ∧ other.su = parts.su ∧
      other.se = parts.se ∧ other.gf = parts.gf ∧ other.ga = parts.ga ∧
      other.tailG1 = parts.tailG1 :=
  ⟨{ parts with ppo := ppo, ppo_length := ppo_length }, rfl, rfl, rfl, rfl, rfl, rfl, rfl⟩

theorem loadProof_join (parts : Parts) : loadProof parts.join = .ok parts.proof := by
  have step {front : List UInt8} {count : Nat} (width : front.length = count)
      (rest : List UInt8) : readBytes count (front ++ rest) = (front, rest) := by
    rw [readBytes, List.splitAt_eq, List.take_left' width, List.drop_left' width]
  have ppo (rest : List UInt8) : readBytes PAIRING_OBJ_BYTES (parts.ppo ++ rest) = _ :=
    step parts.ppo_length rest
  have g1Head (rest : List UInt8) : readBytes PROOF_HEAD_G1_BYTES (parts.g1Head ++ rest) = _ :=
    step parts.g1Head_length rest
  have su (rest : List UInt8) : readBytes SUMCHECK_UNIV_BYTES (parts.su ++ rest) = _ :=
    step parts.su_length rest
  have se (rest : List UInt8) : readBytes SUMCHECK_EVAL_BYTES (parts.se ++ rest) = _ :=
    step parts.se_length rest
  have gf (rest : List UInt8) : readBytes GEMINI_FOLD_COMMS_BYTES (parts.gf ++ rest) = _ :=
    step parts.gf_length rest
  have ga (rest : List UInt8) : readBytes GEMINI_A_EVAL_BYTES (parts.ga ++ rest) = _ :=
    step parts.ga_length rest
  have tailG1 : readBytes FINAL_TWO_G1_BYTES (parts.tailG1 ++ []) = _ :=
    step parts.tailG1_length []
  rw [List.append_nil] at tailG1
  rw [loadProof, if_neg (not_not.mpr parts.length_join)]
  simp only [join, ppo, g1Head, su, se, gf, ga, tailG1]
  rfl

theorem exists_split {bytes : List UInt8} {count rest : Nat} (width : bytes.length = count + rest) :
    ∃ front back : List UInt8, bytes = front ++ back ∧ front.length = count ∧
      back.length = rest := by
  refine ⟨bytes.take count, bytes.drop count, (List.take_append_drop count bytes).symm, ?_, ?_⟩
  · rw [List.length_take, width, Nat.min_eq_left (Nat.le_add_right count rest)]
  · rw [List.length_drop, width, Nat.add_sub_cancel_left]

/-- Every string of the right length has its parts. -/
theorem exists_join {bytes : List UInt8} (width : bytes.length = PROOF_BYTES) :
    ∃ parts : Parts, parts.join = bytes := by
  rcases exists_split (by rw [width]; rfl : bytes.length = 32 * 16 + 14080)
    with ⟨ppo, bytes, rfl, ppo_length, width⟩
  rcases exists_split (by rw [width] : bytes.length = 128 * 8 + 13056)
    with ⟨g1Head, bytes, rfl, g1Head_length, width⟩
  rcases exists_split (by rw [width] : bytes.length = 32 * 224 + 5888)
    with ⟨su, bytes, rfl, su_length, width⟩
  rcases exists_split (by rw [width] : bytes.length = 32 * 40 + 4608)
    with ⟨se, bytes, rfl, se_length, width⟩
  rcases exists_split (by rw [width] : bytes.length = 128 * 27 + 1152)
    with ⟨gf, bytes, rfl, gf_length, width⟩
  rcases exists_split (by rw [width] : bytes.length = 32 * 28 + 256)
    with ⟨ga, bytes, rfl, ga_length, width⟩
  exact ⟨⟨ppo, g1Head, su, se, gf, ga, bytes, ppo_length, g1Head_length, su_length, se_length,
    gf_length, ga_length, width⟩, rfl⟩

end Parts

/-! ## The encoding -/

/-- The points at the head of a proof. -/
def headPoints (proof : Proof) : List G1Point :=
  [proof.w1, proof.w2, proof.w3, proof.lookupReadCounts, proof.lookupReadTags, proof.w4,
    proof.lookupInverses, proof.zPerm]

theorem length_univariates (proof : Proof) :
    (sumcheckMessages proof).flatten.length = 32 * 224 := by
  have each (r : Fin CONST_PROOF_SIZE_LOG_N) :
      ((List.ofFn (proof.sumcheckUnivariates r)).flatMap frBytes).length = 256 := by
    rw [length_flatMap frBytes_length, List.length_ofFn]
    rfl
  rw [sumcheckMessages, ← List.flatMap_def, length_flatMap each, List.length_finRange]
  rfl

/-- The parts of the string that a prover writes. -/
def partsOf (proof : Proof) : Parts where
  ppo := (List.ofFn proof.pairingPointObject).flatMap frBytes
  g1Head := (headPoints proof).flatMap pointBytes
  su := (sumcheckMessages proof).flatten
  se := (List.ofFn proof.sumcheckEvaluations).flatMap frBytes
  gf := (List.ofFn proof.geminiFoldComms).flatMap pointBytes
  ga := (List.ofFn proof.geminiAEvaluations).flatMap frBytes
  tailG1 := [proof.shplonkQ, proof.kzgQuotient].flatMap pointBytes
  ppo_length := by rw [length_flatMap frBytes_length, List.length_ofFn]
  g1Head_length := length_flatMap pointBytes_length _
  su_length := length_univariates proof
  se_length := by rw [length_flatMap frBytes_length, List.length_ofFn]
  gf_length := by
    rw [length_flatMap pointBytes_length, List.length_ofFn]
    rfl
  ga_length := by rw [length_flatMap frBytes_length, List.length_ofFn]
  tailG1_length := length_flatMap pointBytes_length _

theorem partsOf_ppo (proof : Proof) :
    (partsOf proof).ppo = (List.ofFn proof.pairingPointObject).flatMap frBytes := by
  rw [partsOf]

theorem partsOf_su (proof : Proof) : (partsOf proof).su = (sumcheckMessages proof).flatten := by
  rw [partsOf]

theorem partsOf_se (proof : Proof) :
    (partsOf proof).se = (List.ofFn proof.sumcheckEvaluations).flatMap frBytes := by
  rw [partsOf]

theorem partsOf_g1Head (proof : Proof) :
    (partsOf proof).g1Head = (headPoints proof).flatMap pointBytes := by
  rw [partsOf]

theorem partsOf_gf (proof : Proof) :
    (partsOf proof).gf = (List.ofFn proof.geminiFoldComms).flatMap pointBytes := by
  rw [partsOf]

theorem partsOf_tailG1 (proof : Proof) :
    (partsOf proof).tailG1 = [proof.shplonkQ, proof.kzgQuotient].flatMap pointBytes := by
  rw [partsOf]

theorem partsOf_ga (proof : Proof) :
    (partsOf proof).ga = (List.ofFn proof.geminiAEvaluations).flatMap frBytes := by
  rw [partsOf]

/-- The bytes of a proof, in the order in which the transcript absorbs them. -/
def encodeProof (proof : Proof) : List UInt8 :=
  (partsOf proof).join

theorem frWord32_flatMap {count : Nat} (f : Fin count → Fr) (i : Fin count) :
    frWord32 ((List.ofFn f).flatMap frBytes) i = f i := by
  have at_i : (List.ofFn f)[i.val]? = some (f i) := by
    rw [List.getElem?_ofFn, dif_pos i.isLt]
  rw [frWord32, block_flatMap frBytes_length at_i, frFromArray_frBytes]

theorem frWord32_eq {count : Nat} {f : Fin count → Fr} {run : List UInt8}
    (same : run = (List.ofFn f).flatMap frBytes) : (fun i : Fin count => frWord32 run i) = f := by
  subst same
  exact funext (frWord32_flatMap f)

theorem g1FromProofBlobAt_flatMap {points : List G1Point} {i : Nat} {pt : G1Point}
    (at_i : points[i]? = some pt) : g1FromProofBlobAt (points.flatMap pointBytes) i = pt := by
  rw [g1FromProofBlobAt, block_flatMap pointBytes_length at_i, g1FromProofChunk128_pointBytes]

theorem univariates_block (proof : Proof) (r : Fin CONST_PROOF_SIZE_LOG_N) :
    block 256 (sumcheckMessages proof).flatten r =
      (List.ofFn (proof.sumcheckUnivariates r)).flatMap frBytes := by
  have each (r : Fin CONST_PROOF_SIZE_LOG_N) :
      ((List.ofFn (proof.sumcheckUnivariates r)).flatMap frBytes).length = 256 := by
    rw [length_flatMap frBytes_length, List.length_ofFn]
    rfl
  have at_r : (List.finRange CONST_PROOF_SIZE_LOG_N)[r.val]? = some r := by
    rw [List.getElem?_eq_getElem (by rw [List.length_finRange]; exact r.isLt),
      List.getElem_finRange]
    rfl
  rw [sumcheckMessages, ← List.flatMap_def, block_flatMap each at_r]

theorem univariates_word (proof : Proof) (r : Fin CONST_PROOF_SIZE_LOG_N)
    (c : Fin BATCHED_RELATION_PARTIAL_LENGTH) :
    frWord32 (sumcheckMessages proof).flatten
      (r.val * BATCHED_RELATION_PARTIAL_LENGTH + c.val) = proof.sumcheckUnivariates r c := by
  have inner : block 32 (sumcheckMessages proof).flatten (8 * r.val + c.val) =
      block 32 (block (32 * 8) (sumcheckMessages proof).flatten r) c := (block_block c.isLt).symm
  rw [frWord32, Nat.mul_comm, inner, univariates_block, ← frWord32, frWord32_flatMap]

theorem proof_partsOf (proof : Proof) : (partsOf proof).proof = proof := by
  have head {i : Nat} {pt : G1Point} (at_i : (headPoints proof)[i]? = some pt) :
      g1FromProofBlobAt (partsOf proof).g1Head i = pt := g1FromProofBlobAt_flatMap at_i
  have folds (i : Fin (CONST_PROOF_SIZE_LOG_N - 1)) :
      g1FromProofBlobAt (partsOf proof).gf i = proof.geminiFoldComms i := by
    apply g1FromProofBlobAt_flatMap
    rw [List.getElem?_ofFn, dif_pos i.isLt]
  have tail :
      (partsOf proof).tailG1 = pointBytes proof.shplonkQ ++ pointBytes proof.kzgQuotient := by
    show [proof.shplonkQ, proof.kzgQuotient].flatMap pointBytes = _
    rw [List.flatMap_cons, List.flatMap_singleton]
  have first : g1FromProofChunk128 ((partsOf proof).tailG1.take 128) = proof.shplonkQ := by
    rw [tail, List.take_left' (pointBytes_length _), g1FromProofChunk128_pointBytes]
  have second : g1FromProofChunk128 ((partsOf proof).tailG1.drop 128) = proof.kzgQuotient := by
    rw [tail, List.drop_left' (pointBytes_length _), g1FromProofChunk128_pointBytes]
  have ppo := frWord32_eq (partsOf_ppo proof)
  have se := frWord32_eq (partsOf_se proof)
  have ga := frWord32_eq (partsOf_ga proof)
  have su := funext₂ (univariates_word proof)
  rw [← partsOf_su] at su
  rw [Parts.proof, ppo, head rfl, head rfl, head rfl, head rfl, head rfl, head rfl, head rfl,
    head rfl, su, se, funext folds, ga, first, second]

/-! ## Which strings are encodings -/

theorem ofFn_val {β : Type*} (count : Nat) (f : Nat → β) :
    (List.ofFn fun i : Fin count => f i) = (List.range count).map f := by
  rw [List.ofFn_eq_map, ← List.map_coe_finRange_eq_range, List.map_map]
  rfl

theorem ofFn_frWord32 (count : Nat) (run : List UInt8) :
    (List.ofFn fun i : Fin count => frWord32 run i) = (blocks 32 count run).map frFromArray := by
  rw [ofFn_val count (frWord32 run), blocks, List.map_map]
  rfl

theorem ofFn_g1FromProofBlobAt (count : Nat) (run : List UInt8) :
    (List.ofFn fun i : Fin count => g1FromProofBlobAt run i) =
      (blocks 128 count run).map g1FromProofChunk128 := by
  rw [ofFn_val count (g1FromProofBlobAt run), blocks, List.map_map]
  rfl

/-- The bounds of the words of a proof: scalars are reduced, limbs are padded. -/
def wordBounds : List Nat :=
  (List.replicate 16 [p]).flatten ++ ((List.replicate 8 limbBounds).flatten ++
    ((List.replicate 224 [p]).flatten ++ ((List.replicate 40 [p]).flatten ++
      ((List.replicate 27 limbBounds).flatten ++ ((List.replicate 28 [p]).flatten ++
        (List.replicate 2 limbBounds).flatten)))))

namespace Parts

theorem join_inj {parts other : Parts} : parts.join = other.join ↔
    parts.ppo = other.ppo ∧ parts.g1Head = other.g1Head ∧ parts.su = other.su ∧
      parts.se = other.se ∧ parts.gf = other.gf ∧ parts.ga = other.ga ∧
      parts.tailG1 = other.tailG1 := by
  constructor
  · intro same
    rcases List.append_inj same (parts.ppo_length.trans other.ppo_length.symm) with ⟨ppo, same⟩
    rcases List.append_inj same (parts.g1Head_length.trans other.g1Head_length.symm)
      with ⟨g1Head, same⟩
    rcases List.append_inj same (parts.su_length.trans other.su_length.symm) with ⟨su, same⟩
    rcases List.append_inj same (parts.se_length.trans other.se_length.symm) with ⟨se, same⟩
    rcases List.append_inj same (parts.gf_length.trans other.gf_length.symm) with ⟨gf, same⟩
    rcases List.append_inj same (parts.ga_length.trans other.ga_length.symm) with ⟨ga, tailG1⟩
    exact ⟨ppo, g1Head, su, se, gf, ga, tailG1⟩
  · rintro ⟨ppo, g1Head, su, se, gf, ga, tailG1⟩
    rw [join, ppo, g1Head, su, se, gf, ga, tailG1, ← join]

theorem blocks_join (parts : Parts) : blocks 32 456 parts.join =
    blocks 32 16 parts.ppo ++ (blocks 32 (4 * 8) parts.g1Head ++ (blocks 32 224 parts.su ++
      (blocks 32 40 parts.se ++ (blocks 32 (4 * 27) parts.gf ++ (blocks 32 28 parts.ga ++
        blocks 32 (4 * 2) parts.tailG1))))) := by
  have head : parts.g1Head.length = 32 * (4 * 8) := parts.g1Head_length
  have folds : parts.gf.length = 32 * (4 * 27) := parts.gf_length
  rw [← blocks_append parts.ga_length, ← blocks_append folds, ← blocks_append parts.se_length,
    ← blocks_append parts.su_length, ← blocks_append head, ← blocks_append parts.ppo_length]
  rfl

theorem within_join (parts : Parts) : Within wordBounds (blocks 32 456 parts.join) ↔
    Within (List.replicate 16 [p]).flatten (blocks 32 16 parts.ppo) ∧
      Within (List.replicate 8 limbBounds).flatten (blocks 32 (4 * 8) parts.g1Head) ∧
      Within (List.replicate 224 [p]).flatten (blocks 32 224 parts.su) ∧
      Within (List.replicate 40 [p]).flatten (blocks 32 40 parts.se) ∧
      Within (List.replicate 27 limbBounds).flatten (blocks 32 (4 * 27) parts.gf) ∧
      Within (List.replicate 28 [p]).flatten (blocks 32 28 parts.ga) ∧
      Within (List.replicate 2 limbBounds).flatten (blocks 32 (4 * 2) parts.tailG1) := by
  have scalars (n : Nat) (run : List UInt8) :
      (List.replicate n [p]).flatten.length = (blocks 32 n run).length := by
    rw [length_blocks, List.length_flatten, List.map_replicate, List.sum_replicate,
      List.length_singleton, smul_eq_mul, Nat.mul_one]
  have points (n : Nat) (run : List UInt8) :
      (List.replicate n limbBounds).flatten.length = (blocks 32 (4 * n) run).length := by
    rw [length_blocks, List.length_flatten, List.map_replicate, List.sum_replicate, smul_eq_mul,
      Nat.mul_comm]
    rfl
  rw [wordBounds, blocks_join, within_append (scalars 16 parts.ppo),
    within_append (points 8 parts.g1Head), within_append (scalars 224 parts.su),
    within_append (scalars 40 parts.se), within_append (points 27 parts.gf),
    within_append (scalars 28 parts.ga)]

theorem su_eq (parts : Parts) : (sumcheckMessages parts.proof).flatten =
    ((blocks 32 224 parts.su).map frFromArray).flatMap frBytes := by
  have row (r : Fin CONST_PROOF_SIZE_LOG_N) :
      (List.ofFn (parts.proof.sumcheckUnivariates r)).flatMap frBytes =
        ((blocks 32 8 (block (32 * 8) parts.su r)).map frFromArray).flatMap frBytes := by
    have words (c : Fin 8) : parts.proof.sumcheckUnivariates r c =
        frWord32 (block (32 * 8) parts.su r) c := by
      have inner : block 32 (block (32 * 8) parts.su r) c = block 32 parts.su (8 * r.val + c.val) :=
        block_block c.isLt
      rw [frWord32, inner, Nat.mul_comm]
      rfl
    rw [← ofFn_frWord32, ← funext words]
  rw [sumcheckMessages, List.map_congr_left fun r _ => row r, ← List.flatMap_def,
    ← blocks_blocks 8 28, List.map_flatMap, List.flatMap_assoc, blocks, List.flatMap_map,
    ← List.map_coe_finRange_eq_range, List.flatMap_map]

theorem encodeProof_proof_iff (parts : Parts) :
    encodeProof parts.proof = parts.join ↔ Within wordBounds (blocks 32 456 parts.join) := by
  have ppo : (partsOf parts.proof).ppo = _ := (partsOf_ppo parts.proof).trans
    (congrArg (List.flatMap frBytes) (ofFn_frWord32 16 parts.ppo))
  have se : (partsOf parts.proof).se = _ := (partsOf_se parts.proof).trans
    (congrArg (List.flatMap frBytes) (ofFn_frWord32 40 parts.se))
  have ga : (partsOf parts.proof).ga = _ := (partsOf_ga parts.proof).trans
    (congrArg (List.flatMap frBytes) (ofFn_frWord32 28 parts.ga))
  have su : (partsOf parts.proof).su = _ := (partsOf_su parts.proof).trans parts.su_eq
  have gf : (partsOf parts.proof).gf = _ := (partsOf_gf parts.proof).trans
    (congrArg (List.flatMap pointBytes) (ofFn_g1FromProofBlobAt 27 parts.gf))
  have g1Head : (partsOf parts.proof).g1Head =
      ((blocks 128 8 parts.g1Head).map g1FromProofChunk128).flatMap pointBytes := by
    rw [partsOf_g1Head]
    rfl
  have tailG1 : (partsOf parts.proof).tailG1 =
      ((blocks 128 2 parts.tailG1).map g1FromProofChunk128).flatMap pointBytes := by
    have second : block 128 parts.tailG1 1 = parts.tailG1.drop 128 :=
      List.take_of_length_le (by rw [List.length_drop, parts.tailG1_length])
    have both : blocks 128 2 parts.tailG1 = [parts.tailG1.take 128, parts.tailG1.drop 128] := by
      rw [← second]
      rfl
    rw [partsOf_tailG1, both]
    rfl
  rw [encodeProof, join_inj, within_join, ppo, g1Head, su, se, gf, ga, tailG1,
    words_iff parts.ppo_length, points_iff parts.g1Head_length, words_iff parts.su_length,
    words_iff parts.se_length, points_iff parts.gf_length, words_iff parts.ga_length,
    points_iff parts.tailG1_length]

end Parts

theorem loadProof_encodeProof (proof : Proof) : loadProof (encodeProof proof) = .ok proof := by
  rw [encodeProof, Parts.loadProof_join, proof_partsOf]

theorem exists_parts_of_loadProof {bytes : List UInt8} {proof : Proof}
    (loaded : loadProof bytes = .ok proof) :
    ∃ parts : Parts, parts.join = bytes ∧ parts.proof = proof := by
  have width : bytes.length = PROOF_BYTES := by
    by_contra wrong
    rw [loadProof, if_pos wrong] at loaded
    cases loaded
  rcases Parts.exists_join width with ⟨parts, rfl⟩
  rw [Parts.loadProof_join] at loaded
  exact ⟨parts, rfl, Except.ok.inj loaded⟩

/-- The modulus may be added to a scalar. -/
theorem unreduced_lt (x : Fr) : x.val + p < 256 ^ 32 :=
  (Nat.add_lt_add_right x.val_lt p).trans (by decide : p + p < 256 ^ 32)

theorem frFromArray_unreduced (x : Fr) : frFromArray (toBytes 32 (x.val + p)) = x := by
  rw [frFromArray, ofBytes_toBytes (unreduced_lt x), Nat.cast_add, ZMod.natCast_self, add_zero,
    ZMod.natCast_val, ZMod.cast_id', id]

/-- The modulus added to the first scalar gives another string of the same proof. -/
theorem exists_other_string (proof : Proof) :
    ∃ bytes, bytes ≠ encodeProof proof ∧ loadProof bytes = .ok proof := by
  let x := proof.pairingPointObject 0
  let rest := (List.ofFn fun i : Fin 15 => proof.pairingPointObject i.succ).flatMap frBytes
  have ppo_eq : (partsOf proof).ppo = frBytes x ++ rest := by
    rw [partsOf_ppo, List.ofFn_succ, List.flatMap_cons]
  have rest_length : rest.length = 32 * 15 := by
    rw [length_flatMap frBytes_length, List.length_ofFn]
  have width : (toBytes 32 (x.val + p)).length = 32 := length_toBytes 32 _
  have ppo_length : (toBytes 32 (x.val + p) ++ rest).length = 32 * 16 := by
    rw [List.length_append, width, rest_length]
  rcases (partsOf proof).exists_ppo ppo_length with ⟨parts, changed, kept⟩
  have words (i : Fin PAIRING_POINTS_SIZE) : frWord32 parts.ppo i =
      frWord32 (partsOf proof).ppo i := by
    rw [ppo_eq, changed]
    rcases Fin.eq_zero_or_eq_succ i with rfl | ⟨j, rfl⟩
    · rw [frWord32, frWord32, Fin.val_zero, block_zero width, block_zero (frBytes_length x),
        frFromArray_unreduced, frFromArray_frBytes]
    · rw [frWord32, frWord32, Fin.val_succ, block_succ width, block_succ (frBytes_length x)]
  have same : parts.proof = proof := (Parts.proof_congr words kept).trans (proof_partsOf proof)
  refine ⟨parts.join, ?_, ?_⟩
  · intro equal
    have first : toBytes 32 (x.val + p) ++ rest = frBytes x ++ rest :=
      changed.symm.trans ((Parts.join_inj.mp equal).1.trans ppo_eq)
    have reduced := (frBytes_frFromArray_iff width).mp (by
      rw [frFromArray_unreduced]
      exact (List.append_cancel_right first).symm)
    rw [ofBytes_toBytes (unreduced_lt x)] at reduced
    omega
  · rw [Parts.loadProof_join, same]

/-- A proof is read back from its bytes. Every string of the right length reads as some
proof, and it is the one that the proof is written as exactly when its words are within
their bounds; for every proof there is a string that is not. -/
theorem loadProof_roundTrip :
    (∀ proof, loadProof (encodeProof proof) = .ok proof) ∧
      (∀ bytes, (∃ proof, loadProof bytes = .ok proof) ↔ bytes.length = PROOF_BYTES) ∧
      (∀ bytes proof, loadProof bytes = .ok proof ∧ Within wordBounds (blocks 32 456 bytes) ↔
        bytes = encodeProof proof) ∧
      (∀ proof, ∃ bytes, loadProof bytes = .ok proof ∧ bytes ≠ encodeProof proof) := by
  refine ⟨loadProof_encodeProof, fun bytes => ?_, fun bytes proof => ?_, fun proof => ?_⟩
  · constructor
    · rintro ⟨proof, loaded⟩
      rcases exists_parts_of_loadProof loaded with ⟨parts, rfl, _⟩
      exact parts.length_join
    · intro width
      rcases Parts.exists_join width with ⟨parts, rfl⟩
      exact ⟨parts.proof, parts.loadProof_join⟩
  · constructor
    · rintro ⟨loaded, within⟩
      rcases exists_parts_of_loadProof loaded with ⟨parts, rfl, rfl⟩
      exact (parts.encodeProof_proof_iff.mpr within).symm
    · intro encoded
      have canonical : encodeProof (partsOf proof).proof = (partsOf proof).join := by
        rw [proof_partsOf, encodeProof]
      rw [encoded]
      exact ⟨loadProof_encodeProof proof, (partsOf proof).encodeProof_proof_iff.mp canonical⟩
  · rcases exists_other_string proof with ⟨bytes, other, loaded⟩
    exact ⟨bytes, loaded, other⟩

/-! ## Keys -/

/-- What the header of a key that is loaded satisfies. -/
structure VerificationKey.Valid (vk : VerificationKey) : Prop where
  positive : 0 < vk.logCircuitSize.val
  small : vk.logCircuitSize.val ≤ CONST_PROOF_SIZE_LOG_N
  room : PAIRING_POINTS_SIZE ≤ vk.publicInputsSize.val
  size : vk.circuitSize.val = 2 ^ vk.logCircuitSize.val
  inside : vk.pubInputsOffset ≤ vk.circuitSize

/-- The four numbers of a header. -/
def VerificationKey.header (vk : VerificationKey) : List U64 :=
  [vk.circuitSize, vk.logCircuitSize, vk.publicInputsSize, vk.pubInputsOffset]

def u64Bytes (x : U64) : List UInt8 :=
  toBytes 8 x.val

/-- The bytes of a key. -/
def encodeVk (vk : VerificationKey) : List UInt8 :=
  vk.header.flatMap u64Bytes ++ (List.ofFn vk.points).flatMap BytesN.bytes

theorem u64Bytes_length (x : U64) : (u64Bytes x).length = 8 :=
  length_toBytes 8 x.val

theorem u64FromBeBytes_u64Bytes (x : U64) : u64FromBeBytes (u64Bytes x) = x := by
  apply Fin.ext
  rw [u64FromBeBytes, u64Bytes, ofBytes_toBytes x.isLt]
  exact Nat.mod_eq_of_lt x.isLt

theorem u64Bytes_u64FromBeBytes {word : List UInt8} (width : word.length = 8) :
    u64Bytes (u64FromBeBytes word) = word := by
  have small : ofBytes word < 2 ^ 64 := by
    have bound := ofBytes_lt word
    rwa [width] at bound
  have value : (u64FromBeBytes word).val = ofBytes word := Nat.mod_eq_of_lt small
  rw [u64Bytes, value, ← width, toBytes_ofBytes]

theorem header_length (vk : VerificationKey) : (vk.header.flatMap u64Bytes).length = 4 * 8 :=
  length_flatMap u64Bytes_length vk.header

theorem encodeVk_length (vk : VerificationKey) : (encodeVk vk).length = EXPECTED_LEN := by
  rw [encodeVk, List.length_append, header_length, length_flatMap BytesN.length_eq,
    List.length_ofFn]
  rfl

theorem block_encodeVk (vk : VerificationKey) {i : Nat} {x : U64}
    (at_i : vk.header[i]? = some x) : u64FromBeBytes (block 8 (encodeVk vk) i) = x := by
  have small : i < 4 := (List.getElem?_eq_some_iff.mp at_i).1
  have front : block (8 * 4) (encodeVk vk) 0 = vk.header.flatMap u64Bytes :=
    block_zero (header_length vk)
  have inner : block 8 (block (8 * 4) (encodeVk vk) 0) i = block 8 (encodeVk vk) (4 * 0 + i) :=
    block_block small
  rw [front, block_flatMap u64Bytes_length at_i, Nat.mul_zero, Nat.zero_add] at inner
  rw [← inner, u64FromBeBytes_u64Bytes]

theorem points_encodeVk (vk : VerificationKey) (i : Fin NUM_POINTS) :
    g1FromBytes (block 64 ((encodeVk vk).drop (4 * 8)) i) = vk.points i := by
  have at_i : (List.ofFn vk.points)[i.val]? = some (vk.points i) := by
    rw [List.getElem?_ofFn, dif_pos i.isLt]
  rw [encodeVk, List.drop_left' (header_length vk), block_flatMap BytesN.length_eq at_i,
    g1FromBytes_bytes]

/-- The bytes behind a header and points that were read from them. -/
theorem encodeVk_of_blocks {bytes : List UInt8} {vk : VerificationKey}
    (width : bytes.length = EXPECTED_LEN)
    (circuitSize : vk.circuitSize = u64FromBeBytes (block 8 bytes 0))
    (logCircuitSize : vk.logCircuitSize = u64FromBeBytes (block 8 bytes 1))
    (publicInputsSize : vk.publicInputsSize = u64FromBeBytes (block 8 bytes 2))
    (pubInputsOffset : vk.pubInputsOffset = u64FromBeBytes (block 8 bytes 3))
    (points : vk.points = fun i => g1FromBytes (block 64 (bytes.drop (4 * 8)) i.val)) :
    encodeVk vk = bytes := by
  have total : bytes.length = 32 + 64 * 27 := width
  have rest_length : (bytes.drop (4 * 8)).length = 64 * 27 := by
    rw [List.length_drop, total]
  have head_length : (bytes.take (8 * 4)).length = 8 * 4 := by
    rw [List.length_take, total]
    rfl
  have same_blocks : blocks 8 4 (bytes.take (8 * 4)) = blocks 8 4 bytes := by
    apply List.map_congr_left
    intro i mem
    have inner : block 8 (block (8 * 4) bytes 0) i = block 8 bytes (4 * 0 + i) :=
      block_block (List.mem_range.mp mem)
    rwa [Nat.mul_zero, Nat.zero_add] at inner
  have head : vk.header.flatMap u64Bytes = bytes.take (8 * 4) := by
    have listed : vk.header = (blocks 8 4 (bytes.take (8 * 4))).map u64FromBeBytes := by
      rw [VerificationKey.header, circuitSize, logCircuitSize, publicInputsSize, pubInputsOffset,
        same_blocks]
      rfl
    rw [listed, flatMap_decode_iff u64Bytes_length head_length]
    intro word mem
    exact u64Bytes_u64FromBeBytes (length_of_mem_blocks head_length mem)
  have back : (List.ofFn vk.points).flatMap BytesN.bytes = bytes.drop (4 * 8) := by
    have listed : List.ofFn vk.points = (blocks 64 27 (bytes.drop (4 * 8))).map g1FromBytes := by
      rw [points, blocks, List.map_map, ← ofFn_val]
      rfl
    rw [listed, flatMap_decode_iff BytesN.length_eq rest_length]
    intro word mem
    exact bytes_g1FromBytes (length_of_mem_blocks rest_length mem)
  rw [encodeVk, head, back]
  exact List.take_append_drop (8 * 4) bytes

theorem loadVkFromBytes_encodeVk {vk : VerificationKey} (valid : vk.Valid) :
    loadVkFromBytes (encodeVk vk) = .ok vk := by
  have circuitSize : u64FromBeBytes (block 8 (encodeVk vk) 0) = vk.circuitSize :=
    block_encodeVk vk rfl
  have logCircuitSize : u64FromBeBytes (block 8 (encodeVk vk) 1) = vk.logCircuitSize :=
    block_encodeVk vk rfl
  have publicInputsSize : u64FromBeBytes (block 8 (encodeVk vk) 2) = vk.publicInputsSize :=
    block_encodeVk vk rfl
  have pubInputsOffset : u64FromBeBytes (block 8 (encodeVk vk) 3) = vk.pubInputsOffset :=
    block_encodeVk vk rfl
  have bounds : ¬(vk.logCircuitSize.val = 0 ∨
      vk.logCircuitSize.val > CONST_PROOF_SIZE_LOG_N) := by
    have := valid.positive
    have := valid.small
    omega
  rw [loadVkFromBytes, if_neg (not_not.mpr (encodeVk_length vk))]
  simp only [circuitSize, logCircuitSize, publicInputsSize, pubInputsOffset,
    if_neg bounds, if_neg (not_lt.mpr valid.room), if_neg (not_not.mpr valid.size),
    if_neg (not_lt.mpr valid.inside), points_encodeVk]

/-- A key is loaded from its bytes and from no others, and exactly when its header is
sound. -/
theorem loadVkFromBytes_eq_ok_iff {bytes : List UInt8} {vk : VerificationKey} :
    loadVkFromBytes bytes = .ok vk ↔ bytes = encodeVk vk ∧ vk.Valid := by
  constructor
  · intro loaded
    rw [loadVkFromBytes] at loaded
    by_cases width : bytes.length = EXPECTED_LEN
    · rw [if_neg (not_not.mpr width)] at loaded
      dsimp only at loaded
      split_ifs at loaded with bounds room size inside
      rcases Except.ok.inj loaded with rfl
      refine ⟨Eq.symm (encodeVk_of_blocks width rfl rfl rfl rfl rfl), ⟨?_, ?_, ?_, ?_, ?_⟩⟩
      · exact Nat.pos_of_ne_zero fun zero => bounds (Or.inl zero)
      · exact not_lt.mp fun large => bounds (Or.inr large)
      · exact not_lt.mp room
      · exact not_not.mp size
      · exact not_lt.mp inside
    · rw [if_pos width] at loaded
      cases loaded
  · rintro ⟨rfl, valid⟩
    exact loadVkFromBytes_encodeVk valid

end Solva.Verifier
