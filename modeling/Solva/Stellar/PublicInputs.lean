import Solva.Contract.History
import Solva.Orchestrator.Ports

/-!
# The public inputs at every tier

The service renders the four public inputs as text, the publisher encodes the texts
as a map in key order, the contract reads the map and lays the fields out in the
circuit's order. From bundle to bytes nothing is lost or moved.
-/

namespace Solva.Stellar

open Bn254 Codec Orchestrator

/-! ## What a text denotes -/

/-- The texts of a 32-byte root: 64 hex digits of either case behind an optional
`0x`. -/
def IsRoot (s : String) (bytes : List UInt8) : Prop :=
  bytes.length = 32 ∧ ∃ pre digits, (pre = [] ∨ pre = ['0', 'x']) ∧ s.toList = pre ++ digits ∧
    digits.map Char.toLower = Hex.encode bytes

/-- An amount is encoded exactly when its text is a signed integer in range, and then
as that integer. -/
theorem u128FromDecimal_iff {s : String} {v : U128} :
    (∃ halves, u128FromDecimal s = .ok halves ∧ ofHalves halves.1 halves.2 = v) ↔
      Decimal.Signed s.toList v.val := by
  rw [← Decimal.signed?_eq_some_iff]
  constructor
  · rintro ⟨halves, encoded, rfl⟩
    exact u128FromDecimal_eq_ok encoded
  · intro read
    have fits : ¬ 2 ^ 128 ≤ v.val := Nat.not_le.mpr v.isLt
    refine ⟨(Fin.ofNat (2 ^ 64) (v.val / 2 ^ 64), Fin.ofNat (2 ^ 64) v.val), ?_, ?_⟩
    · unfold u128FromDecimal
      simp only [read]
      rw [if_neg (by omega), Int.toNat_natCast, if_neg fits]
    · apply Fin.ext
      simp only [ofHalves, Fin.ofNat]
      omega

/-- No hex text starts with `0x`. -/
theorem not_prefix_of_hex {digits : List Char} {bytes : List UInt8}
    (spelled : digits.map Char.toLower = Hex.encode bytes) : ¬ ['0', 'x'] <+: digits := by
  rintro ⟨rest, rfl⟩
  have mem : 'x' ∈ Hex.encode bytes := by
    rw [← spelled]
    simp
  obtain ⟨n, n_lt, digit⟩ := Hex.exists_digit_of_mem_encode mem
  interval_cases n <;> cases digit

/-- The spellings of a root are what decodes behind the optional prefix. -/
theorem isRoot_iff {s : String} {bytes : List UInt8} :
    IsRoot s bytes ↔
      Hex.decode (trimPrefix ['0', 'x'] s.toList) = some bytes ∧ bytes.length = 32 := by
  constructor
  · rintro ⟨width, pre, digits, pre_eq, text_eq, spelled⟩
    refine ⟨?_, width⟩
    rw [text_eq]
    rcases pre_eq with rfl | rfl
    · rw [List.nil_append, trimPrefix, if_neg (not_prefix_of_hex spelled)]
      exact Hex.decode_eq_some_iff.mpr spelled
    · rw [trimPrefix, if_pos (List.prefix_append _ _), List.drop_left]
      exact Hex.decode_eq_some_iff.mpr spelled
  · rintro ⟨decoded, width⟩
    refine ⟨width, ?_⟩
    unfold trimPrefix at decoded
    split at decoded
    · rename_i marked
      obtain ⟨rest, text_eq⟩ := marked
      rw [← text_eq, List.drop_left] at decoded
      exact ⟨_, rest, Or.inr rfl, text_eq.symm, Hex.decode_eq_some_iff.mp decoded⟩
    · exact ⟨[], _, Or.inl rfl, rfl, Hex.decode_eq_some_iff.mp decoded⟩

/-- A root is encoded exactly when its text is one of its spellings. -/
theorem bytes32FromHex_iff {s : String} {bytes : List UInt8} :
    bytes32FromHex s = .ok bytes ↔ IsRoot s bytes := by
  constructor
  · exact fun encoded => isRoot_iff.mpr (bytes32FromHex_eq_ok encoded)
  · intro root
    obtain ⟨decoded, width⟩ := isRoot_iff.mp root
    simp only [bytes32FromHex, decoded, width, not_true, ne_eq, if_false]

/-! ## What the map carries -/

/-- The values of a bundle. -/
def bundleInputs (bundle : Prover.ProofBundle) : Contract.PubInputs :=
  { reservesTotal := bundle.reservesTotal
    liabilitiesTotal := bundle.liabilitiesTotal
    rootHash := bundle.rootHash
    prevReserves := bundle.prevReserves }

/-- The four texts are encoded exactly when each denotes a value, and the contract
reads these values. -/
theorem encodePubInputs_iff {pub : Orchestrator.PublicInputs} {pi : Contract.PubInputs} :
    (∃ map, encodePubInputs pub = .ok map ∧ readPubInputs map = some pi) ↔
      Decimal.Signed pub.reservesTotal.toList pi.reservesTotal.val ∧
        Decimal.Signed pub.liabilitiesTotal.toList pi.liabilitiesTotal.val ∧
          Decimal.Signed pub.prevReserves.toList pi.prevReserves.val ∧
            IsRoot pub.rootHash pi.rootHash.bytes := by
  constructor
  · rintro ⟨map, encoded, read⟩
    obtain ⟨found, found_eq, denotes⟩ := readPubInputs_of_encode encoded
    obtain rfl : found = pi := Option.some.inj (found_eq.symm.trans read)
    exact ⟨Decimal.signed?_eq_some_iff.mp denotes.reserves,
      Decimal.signed?_eq_some_iff.mp denotes.liabilities,
      Decimal.signed?_eq_some_iff.mp denotes.prev,
      isRoot_iff.mpr ⟨denotes.root, found.rootHash.length_eq⟩⟩
  · rintro ⟨reserves, liabilities, prev, root⟩
    obtain ⟨r, r_eq, r_val⟩ := u128FromDecimal_iff.mpr reserves
    obtain ⟨l, l_eq, l_val⟩ := u128FromDecimal_iff.mpr liabilities
    obtain ⟨before, before_eq, before_val⟩ := u128FromDecimal_iff.mpr prev
    have root_eq := bytes32FromHex_iff.mpr root
    refine ⟨[("liabilities_total", .u128 l.1 l.2), ("prev_reserves", .u128 before.1 before.2),
      ("reserves_total", .u128 r.1 r.2), ("root_hash", .bytes pi.rootHash.bytes)], ?_, ?_⟩
    · simp only [encodePubInputs, l_eq, before_eq, r_eq, root_eq, Except.mapError, bind,
        Except.bind, pure, Except.pure]
    · simp [readPubInputs, ScVal.u128?, ScVal.bytes32?, pi.rootHash.length_eq, r_val, l_val,
        before_val]

/-! ## The bytes the circuit is checked on -/

/-- A number in a 32-byte word. -/
def be32 (n : Nat) : Bytes32 :=
  BytesN.ofNat 32 n

theorem u128Word_eq_be32 (v : U128) : Contract.u128Word v = be32 v.val := by
  apply BytesN.toNat_injective
  rw [Contract.toNat_u128Word, be32,
    BytesN.toNat_ofNat (Nat.lt_of_lt_of_le v.isLt (by decide))]

theorem be32_injective : Function.Injective fun v : U128 => be32 v.val := by
  intro left right equal
  simp only [← u128Word_eq_be32] at equal
  have value_eq := congrArg BytesN.toNat equal
  rw [Contract.toNat_u128Word, Contract.toNat_u128Word] at value_eq
  exact Fin.ext value_eq

/-- The contract lays out `R`, the root, `L` and `R_prev`. -/
theorem encodePublicInputs_eq (pi : Contract.PubInputs) :
    Contract.encodePublicInputs pi =
      (be32 pi.reservesTotal.val).bytes ++ pi.rootHash.bytes ++
        (be32 pi.liabilitiesTotal.val).bytes ++ (be32 pi.prevReserves.val).bytes := by
  simp only [Contract.encodePublicInputs, u128Word_eq_be32]

/-- The layout of the public inputs determines them. -/
theorem encodePublicInputs_injective : Function.Injective Contract.encodePublicInputs := by
  rintro ⟨r, l, root, prev⟩ ⟨r', l', root', prev'⟩ equal
  rw [encodePublicInputs_eq, encodePublicInputs_eq] at equal
  obtain ⟨equal, prev_eq⟩ := BytesN.append_bytes_inj equal
  obtain ⟨equal, l_eq⟩ := BytesN.append_bytes_inj equal
  obtain ⟨equal, root_eq⟩ := BytesN.append_bytes_inj equal
  rw [show r = r' from be32_injective (BytesN.eq_of_bytes_eq equal),
    show l = l' from be32_injective l_eq, show root = root' from root_eq,
    show prev = prev' from be32_injective prev_eq]

/-- The public inputs of `main` in the order of its parameters. -/
def declared (pub : Circuit.PublicInputs) : List Fr :=
  [pub.R, pub.rootH, pub.L, pub.RPrev]

/-- The rendered texts of a bundle denote its values. -/
theorem encodePubInputs_bundle (bundle : Prover.ProofBundle) :
    ∃ map, encodePubInputs (ofResponse bundle.toResponse.publicInputs) = .ok map ∧
      readPubInputs map = some (bundleInputs bundle) := by
  have amount (v : U128) : Decimal.Signed (toString v.val).toList v.val :=
    Decimal.signed?_eq_some_iff.mp (Decimal.signed?_repr v.val)
  have root : IsRoot (String.ofList (Hex.encode bundle.rootHash.bytes)) bundle.rootHash.bytes :=
    ⟨bundle.rootHash.length_eq, [], Hex.encode bundle.rootHash.bytes, Or.inl rfl,
      String.toList_ofList, Hex.map_toLower_encode _⟩
  exact encodePubInputs_iff.mpr ⟨amount bundle.reservesTotal, amount bundle.liabilitiesTotal,
    amount bundle.prevReserves, root⟩

/-- The public inputs mean the same at every tier: a bundle's values arrive in the
contract and are laid out in the circuit's order, the layout determines them, and the
publisher refuses exactly the texts that denote no value. -/
theorem publicInputs_same :
    (∀ bundle : Prover.ProofBundle, ∃ map,
      encodePubInputs (ofResponse bundle.toResponse.publicInputs) = .ok map ∧
        readPubInputs map = some (bundleInputs bundle) ∧
        ∃ words, Contract.encodePublicInputs (bundleInputs bundle) = words.flatMap BytesN.bytes ∧
          words = [be32 bundle.reservesTotal.val, bundle.rootHash,
            be32 bundle.liabilitiesTotal.val, be32 bundle.prevReserves.val] ∧
          words.map fromBeBytesModOrder =
            declared
              { R := frOfU128 bundle.reservesTotal
                rootH := fromBeBytesModOrder bundle.rootHash
                L := frOfU128 bundle.liabilitiesTotal
                RPrev := frOfU128 bundle.prevReserves }) ∧
    Function.Injective Contract.encodePublicInputs ∧
    (∀ s, ∀ v : U128, (∃ halves, u128FromDecimal s = .ok halves ∧ ofHalves halves.1 halves.2 = v) ↔
      Decimal.Signed s.toList v.val) ∧
    (∀ s bytes, bytes32FromHex s = .ok bytes ↔ IsRoot s bytes) ∧
    ∀ pub pi, (∃ map, encodePubInputs pub = .ok map ∧ readPubInputs map = some pi) ↔
      Decimal.Signed pub.reservesTotal.toList pi.reservesTotal.val ∧
        Decimal.Signed pub.liabilitiesTotal.toList pi.liabilitiesTotal.val ∧
          Decimal.Signed pub.prevReserves.toList pi.prevReserves.val ∧
            IsRoot pub.rootHash pi.rootHash.bytes := by
  refine ⟨fun bundle => ?_, encodePublicInputs_injective, fun s v => u128FromDecimal_iff,
    fun s bytes => bytes32FromHex_iff, fun pub pi => encodePubInputs_iff⟩
  obtain ⟨map, encoded, read⟩ := encodePubInputs_bundle bundle
  refine ⟨map, encoded, read, _, ?_, rfl, ?_⟩
  · rw [encodePublicInputs_eq]
    simp [bundleInputs]
  · simp [declared, ← u128Word_eq_be32, Contract.fromBeBytesModOrder_u128Word]

end Solva.Stellar
