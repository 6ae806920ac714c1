import Mathlib.Logic.Function.Basic
import Solva.Prover.Tree

/-!
# The proof-registry contract

The Soroban contract of `contracts/proof-registry`: one owner, one verifying key,
a counter of published proofs and one entry per proof. Every entry point returns
its outcome together with the storage it leaves, so that what an error leaves
behind is part of the model. A host trap (missing authorisation, checked
arithmetic, a non-canonical sponge input) is an outcome of its own.
-/

namespace Solva.Contract

open Bn254 SumTree Codec

/-! ## Data -/

structure PubInputs where
  reservesTotal : U128
  liabilitiesTotal : U128
  rootHash : Bytes32
  prevReserves : U128
  deriving DecidableEq

structure ProofMeta where
  rootH : Bytes32
  r : U128
  l : U128
  timestamp : U64
  deriving DecidableEq

/-- One sibling step on an inclusion path. -/
structure PathNode where
  hash : Bytes32
  sum : U128
  siblingIsLeft : Bool
  deriving DecidableEq

inductive Error where
  | alreadyInitialized
  | notInitialized
  | proofInvalid
  | insolventBound
  | proofNotFound
  | prevReservesMismatch
  deriving DecidableEq

structure ProofPublishedEvent where
  reservesTotal : U128
  liabilitiesTotal : U128
  ts : U64
  deriving DecidableEq

/-- How a call ends: a value, a contract error, or a host trap. -/
inductive Outcome (α : Type) where
  | ok (value : α)
  | err (error : Error)
  | trap
  deriving DecidableEq

/-- Contract storage, with the events emitted so far. -/
structure Storage (Address : Type) where
  owner : Option Address
  vk : Option (List UInt8)
  latestId : Option U64
  proofs : U64 → Option ProofMeta
  events : List ProofPublishedEvent

namespace Storage

/-- The storage of a contract before its constructor ran. -/
def empty {Address : Type} : Storage Address :=
  ⟨none, none, none, fun _ => none, []⟩

/-- `LatestId`, as `unwrap_or(0)` reads it. -/
def latest {Address : Type} (s : Storage Address) : U64 :=
  s.latestId.getD 0

end Storage

/-- What a call sees of its transaction: who authorised it and the ledger time. -/
structure Env (Address : Type) where
  auth : Address → Bool
  timestamp : U64

/-- The vendored UltraHonk verifier on a verifying key, a proof and the public
input bytes; `none` is a trap. -/
abbrev Verifier : Type :=
  List UInt8 → List UInt8 → List UInt8 → Option Bool

/-! ## Verification of a proof -/

/-- `PROOF_BYTES` of the vendored verifier: 456 words of 32 bytes. -/
def PROOF_BYTES : Nat :=
  456 * 32

/-- A `u128` in the low 16 bytes of a 32-byte word. -/
def u128Word (value : U128) : Bytes32 :=
  ⟨List.replicate 16 0 ++ (BytesN.ofNat 16 value.val).bytes,
    by simp [(BytesN.ofNat 16 value.val).length_eq]⟩

/-- `encode_public_inputs`: the words `R, root_h, L, R_prev`. -/
def encodePublicInputs (pi : PubInputs) : List UInt8 :=
  (u128Word pi.reservesTotal).bytes ++ pi.rootHash.bytes ++
    (u128Word pi.liabilitiesTotal).bytes ++ (u128Word pi.prevReserves).bytes

/-- `verify_ultrahonk`. -/
def verifyUltrahonk (verifier : Verifier) (vk proof : List UInt8) (pi : PubInputs) :
    Option Bool :=
  if proof.length ≠ PROOF_BYTES then some false
  else verifier vk proof (encodePublicInputs pi)

/-- `enforce_growth_baseline`. -/
def enforceGrowthBaseline (latestId : U64) (previousReserves declaredPrevReserves
    reservesTotal : U128) : Except Error Unit :=
  let expected := if latestId = 0 then reservesTotal else previousReserves
  if declaredPrevReserves ≠ expected then .error .prevReservesMismatch else .ok ()

/-! ## Entry points -/

section EntryPoints

variable {Address : Type}

/-- `__constructor`. -/
def constructor (owner : Address) (vk : List UInt8) (s : Storage Address) :
    Outcome Unit × Storage Address :=
  if s.owner.isSome then (.err .alreadyInitialized, s)
  else (.ok (), { s with owner := some owner, vk := some vk, latestId := some 0 })

/-- `get_proof`. -/
def getProof (id : U64) (s : Storage Address) : Outcome ProofMeta :=
  match s.proofs id with
  | some entry => .ok entry
  | none => .err .proofNotFound

/-- `get_latest_proof`. -/
def getLatestProof (s : Storage Address) : Outcome ProofMeta :=
  match s.latestId with
  | some id => getProof id s
  | none => .err .notInitialized

/-- The reserves of the last entry; nothing is read before the first publish. -/
def previousReserves (s : Storage Address) : Outcome U128 :=
  if s.latest = 0 then .ok 0
  else
    match getProof s.latest s with
    | .ok entry => .ok entry.r
    | .err error => .err error
    | .trap => .trap

/-- The storage after recording a proof under an id. -/
def record (env : Env Address) (id : U64) (pi : PubInputs) (s : Storage Address) :
    Storage Address :=
  let entry : ProofMeta :=
    { rootH := pi.rootHash
      r := pi.reservesTotal
      l := pi.liabilitiesTotal
      timestamp := env.timestamp }
  { s with
    proofs := Function.update s.proofs id (some entry)
    latestId := some id
    events := s.events ++ [⟨pi.reservesTotal, pi.liabilitiesTotal, env.timestamp⟩] }

/-- `publish_proof`. -/
def publishProof (verifier : Verifier) (env : Env Address) (proof : List UInt8)
    (pi : PubInputs) (s : Storage Address) : Outcome U64 × Storage Address :=
  match s.owner with
  | none => (.err .notInitialized, s)
  | some owner =>
      if env.auth owner = false then (.trap, s)
      else
        match s.vk with
        | none => (.err .notInitialized, s)
        | some vk =>
            match verifyUltrahonk verifier vk proof pi with
            | none => (.trap, s)
            | some false => (.err .proofInvalid, s)
            | some true =>
                if pi.reservesTotal < pi.liabilitiesTotal then (.err .insolventBound, s)
                else
                  match previousReserves s with
                  | .err error => (.err error, s)
                  | .trap => (.trap, s)
                  | .ok previous =>
                      match enforceGrowthBaseline s.latest previous pi.prevReserves
                          pi.reservesTotal with
                      | .error error => (.err error, s)
                      | .ok () =>
                          -- `latest_id + 1` is checked
                          if fits : s.latest.val + 1 < 2 ^ 64 then
                            let id : U64 := ⟨s.latest.val + 1, fits⟩
                            (.ok id, record env id pi s)
                          else (.trap, s)

end EntryPoints

/-! ## What a publish does -/

section Publish

variable {Address : Type} {verifier : Verifier} {env : Env Address} {proof : List UInt8}
  {pi : PubInputs} {s s' : Storage Address} {id : U64}

/-- The previous reserves the baseline check expects: the declared reserves
themselves at genesis, later those of the last entry. -/
def expectedPrev (s : Storage Address) (reservesTotal : U128) : Option U128 :=
  if s.latest = 0 then some reservesTotal else (s.proofs s.latest).map ProofMeta.r

/-- What lets a publish through. -/
structure Accepted (verifier : Verifier) (env : Env Address) (proof : List UInt8)
    (pi : PubInputs) (s : Storage Address) : Prop where
  authorised : ∃ owner, s.owner = some owner ∧ env.auth owner = true
  verified : ∃ vk, s.vk = some vk ∧ verifyUltrahonk verifier vk proof pi = some true
  solvent : pi.liabilitiesTotal ≤ pi.reservesTotal
  baseline : expectedPrev s pi.reservesTotal = some pi.prevReserves
  fits : s.latest.val + 1 < 2 ^ 64

/-- The baseline check passes exactly on the expected previous reserves. -/
theorem baseline_ok_iff {previous : U128} (read : previousReserves s = .ok previous) :
    enforceGrowthBaseline s.latest previous pi.prevReserves pi.reservesTotal = .ok () ↔
      expectedPrev s pi.reservesTotal = some pi.prevReserves := by
  unfold enforceGrowthBaseline expectedPrev
  unfold previousReserves at read
  by_cases genesis : s.latest = 0
  · simp only [genesis, if_true]
    by_cases equal : pi.prevReserves = pi.reservesTotal
    · simp [equal]
    · simp [equal, Ne.symm equal]
  · rw [if_neg genesis, getProof] at read
    cases found : s.proofs s.latest with
    | none => simp [found] at read
    | some entry =>
        simp only [found, Outcome.ok.injEq] at read
        subst read
        simp only [genesis, if_false]
        by_cases equal : pi.prevReserves = entry.r
        · simp [equal]
        · simp [equal, Ne.symm equal]

theorem exists_previousReserves {value : U128}
    (expected : expectedPrev s pi.reservesTotal = some value) :
    ∃ previous, previousReserves s = .ok previous := by
  unfold expectedPrev at expected
  unfold previousReserves
  by_cases genesis : s.latest = 0
  · exact ⟨0, if_pos genesis⟩
  · rw [if_neg genesis, Option.map_eq_some_iff] at expected
    obtain ⟨entry, found, _⟩ := expected
    exact ⟨entry.r, by rw [if_neg genesis, getProof, found]⟩

/-- The expected previous reserves are never answered with a mismatch. -/
theorem publishProof_ne_mismatch (verifier : Verifier) (env : Env Address) (proof : List UInt8)
    (expected : expectedPrev s pi.reservesTotal = some pi.prevReserves) :
    (publishProof verifier env proof pi s).1 ≠ .err .prevReservesMismatch := by
  obtain ⟨previous, read⟩ := exists_previousReserves expected
  have checked := (baseline_ok_iff read).mpr expected
  unfold publishProof
  simp only [read, checked]
  repeat' split
  all_goals simp

/-- A publish succeeds exactly when it is accepted, and then records its inputs
under the next id. -/
theorem publishProof_eq_ok_iff :
    publishProof verifier env proof pi s = (.ok id, s') ↔
      Accepted verifier env proof pi s ∧ id.val = s.latest.val + 1 ∧ s' = record env id pi s := by
  constructor
  · intro published
    unfold publishProof at published
    cases owner_eq : s.owner with
    | none => simp [owner_eq] at published
    | some owner =>
    cases authorised : env.auth owner with
    | false => simp [owner_eq, authorised] at published
    | true =>
    cases vk_eq : s.vk with
    | none => simp [owner_eq, authorised, vk_eq] at published
    | some vk =>
    cases verified : verifyUltrahonk verifier vk proof pi with
    | none => simp [owner_eq, authorised, vk_eq, verified] at published
    | some verdict =>
    cases verdict with
    | false => simp [owner_eq, authorised, vk_eq, verified] at published
    | true =>
    by_cases insolvent : pi.reservesTotal < pi.liabilitiesTotal
    · simp [owner_eq, authorised, vk_eq, verified, insolvent] at published
    cases read : previousReserves s with
    | err error => simp [owner_eq, authorised, vk_eq, verified, insolvent, read] at published
    | trap => simp [owner_eq, authorised, vk_eq, verified, insolvent, read] at published
    | ok previous =>
    cases checked : enforceGrowthBaseline s.latest previous pi.prevReserves pi.reservesTotal with
    | error error =>
        simp [owner_eq, authorised, vk_eq, verified, insolvent, read, checked] at published
    | ok _ =>
    by_cases fits : s.latest.val + 1 < 2 ^ 64
    · simp only [owner_eq, authorised, vk_eq, verified, insolvent, read, checked, fits,
        Bool.true_eq_false, if_false, dif_pos, Prod.mk.injEq, Outcome.ok.injEq] at published
      obtain ⟨rfl, rfl⟩ := published
      exact ⟨⟨⟨owner, owner_eq, authorised⟩, ⟨vk, vk_eq, verified⟩, Fin.not_lt.mp insolvent,
        (baseline_ok_iff read).mp checked, fits⟩, rfl, rfl⟩
    · simp only [owner_eq, authorised, vk_eq, verified, insolvent, read, checked, fits,
        Bool.true_eq_false, if_false, dif_neg, not_false_eq_true, Prod.mk.injEq,
        reduceCtorEq, false_and] at published
  · rintro ⟨accepted, id_eq, rfl⟩
    obtain ⟨owner, owner_eq, authorised⟩ := accepted.authorised
    obtain ⟨vk, vk_eq, verified⟩ := accepted.verified
    obtain ⟨previous, read⟩ := exists_previousReserves accepted.baseline
    have checked := (baseline_ok_iff read).mpr accepted.baseline
    have solvent := Fin.not_lt.mpr accepted.solvent
    have fits := accepted.fits
    have id_fin : id = ⟨s.latest.val + 1, fits⟩ := Fin.ext id_eq
    simp only [publishProof, owner_eq, authorised, vk_eq, verified, solvent, read, checked, fits,
      Bool.true_eq_false, if_false, dif_pos, id_fin]

/-- A publish records its inputs or leaves the storage as it was. -/
theorem publishProof_cases (verifier : Verifier) (env : Env Address) (proof : List UInt8)
    (pi : PubInputs) (s : Storage Address) :
    (∃ id, publishProof verifier env proof pi s = (.ok id, record env id pi s)) ∨
      (∀ id, (publishProof verifier env proof pi s).1 ≠ .ok id) ∧
        (publishProof verifier env proof pi s).2 = s := by
  unfold publishProof
  repeat' split
  all_goals first
    | exact Or.inr ⟨fun _ => by simp, rfl⟩
    | exact Or.inl ⟨_, rfl⟩

end Publish

/-! ## Inclusion -/

section Inclusion

variable (hash4 : Hash4)

/-- `poseidon2_leaf`; the sponge traps on a word at or above the modulus. -/
def poseidon2Leaf (idHash : Bytes32) (balance : U128) : Option Bytes32 :=
  if Canonical idHash then
    some (frToBytes (hash4 (fromBeBytesModOrder idHash) (frOfU128 balance) 0 0))
  else none

/-- `poseidon2_node`. -/
def poseidon2Node (leftHash : Bytes32) (leftSum : U128) (rightHash : Bytes32)
    (rightSum : U128) : Option Bytes32 :=
  if Canonical leftHash ∧ Canonical rightHash then
    some (frToBytes (hash4 (fromBeBytesModOrder leftHash) (frOfU128 leftSum)
      (fromBeBytesModOrder rightHash) (frOfU128 rightSum)))
  else none

/-- One step of the inclusion fold on the node's hash and sum. -/
def climbStep (node : Bytes32 × U128) (step : PathNode) : Option (Bytes32 × U128) :=
  let (leftHash, leftSum, rightHash, rightSum) :=
    if step.siblingIsLeft then (step.hash, step.sum, node.1, node.2)
    else (node.1, node.2, step.hash, step.sum)
  (poseidon2Node hash4 leftHash leftSum rightHash rightSum).map fun hash =>
    (hash, saturatingAdd node.2 step.sum)

/-- `verify_inclusion`. -/
def verifyInclusion {Address : Type} (id : U64) (idHash : Bytes32) (balance : U128)
    (path : List PathNode) (s : Storage Address) : Outcome Bool :=
  match getProof id s with
  | .err error => .err error
  | .trap => .trap
  | .ok entry =>
      match (poseidon2Leaf hash4 idHash balance).bind fun hash =>
          path.foldlM (climbStep hash4) (hash, balance) with
      | some (nodeHash, nodeSum) => .ok (nodeHash = entry.rootH ∧ nodeSum = entry.l)
      | none => .trap

end Inclusion

end Solva.Contract
