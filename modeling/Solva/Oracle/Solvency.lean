import Solva.Contract.History
import Solva.Sdk.BigInt
import Solva.Transition.Environment

/-!
# The oracle's solvency answer

`getSolvency` reads the latest stored proof and then asks the registry for its latest
entry. The figures come from the first read, the confirmation from the second; the
database and the registries move in between.
-/

namespace Solva.Oracle

open Bn254 Codec Relation Sdk Transition

/-! ## `@solva/shared-types` and `@solva/contract-bindings` -/

structure PublicInputs where
  reservesTotal : String
  liabilitiesTotal : String
  rootHash : String
  prevReserves : String
  deriving DecidableEq

structure Proof where
  id : String
  proof : String
  publicInputs : PublicInputs
  publishedAt : Nat
  deriving DecidableEq

inductive SolvencyStatus where
  | solvent
  | breach
  | unknown
  deriving DecidableEq

structure SolvencyResult where
  status : SolvencyStatus
  solvent : Bool
  reservesTotal : String
  liabilitiesTotal : String
  proofId : String
  verifiedOnChain : Bool
  asOf : Nat
  deriving DecidableEq

/-- The read surface of an entry. -/
structure ProofMeta where
  rootHash : String
  reservesTotal : String
  liabilitiesTotal : String
  timestamp : Nat
  deriving DecidableEq

/-- `toProofMeta`. -/
def toProofMeta (m : Contract.ProofMeta) : ProofMeta :=
  ⟨String.ofList (Hex.encode m.rootH.bytes), toString m.r.val, toString m.l.val, m.timestamp.val⟩

/-! ## The SDK's configuration -/

/-- `Network`; the third is `"local"`. -/
inductive Network where
  | testnet
  | mainnet
  | localNetwork
  deriving DecidableEq

structure NetworkConfig where
  orchestratorUrl : String
  rpcUrl : String
  networkPassphrase : String
  contractId : String
  deriving DecidableEq

/-- The overrides that the oracle passes as `endpoints`. -/
structure Endpoints where
  orchestratorUrl : Option String
  rpcUrl : Option String
  contractId : Option String

structure SolvaConfig where
  network : Network
  tenant : String
  endpoints : Endpoints
  apiKey : Option String

def PUBLIC_NETWORK : String :=
  "Public Global Stellar Network ; September 2015"

def TEST_NETWORK : String :=
  "Test SDF Network ; September 2015"

/-- `DEFAULTS`. -/
def DEFAULTS : Network → NetworkConfig
  | .testnet =>
      ⟨"https://api.testnet.solva.dev", "https://soroban-testnet.stellar.org", TEST_NETWORK, ""⟩
  | .mainnet => ⟨"https://api.solva.dev", "https://soroban.stellar.org", PUBLIC_NETWORK, ""⟩
  | .localNetwork => ⟨"http://localhost:8080", "http://localhost:8000/rpc", TEST_NETWORK, ""⟩

/-- The endpoints of `resolveConfig`. -/
def resolveConfig (config : SolvaConfig) : NetworkConfig :=
  let base := DEFAULTS config.network
  { orchestratorUrl := config.endpoints.orchestratorUrl.getD base.orchestratorUrl
    rpcUrl := config.endpoints.rpcUrl.getD base.rpcUrl
    networkPassphrase := base.networkPassphrase
    contractId := config.endpoints.contractId.getD base.contractId }

/-- `process.env`. -/
structure ProcessEnv where
  SOLVA_ORCHESTRATOR_URL : Option String
  SOLVA_RPC_URL : Option String
  SOLVA_CONTRACT_ID : Option String
  SOLVA_API_TOKEN : Option String

/-- A variable that is set and not empty. -/
def truthy (value : Option String) : Option String :=
  value.filter (· ≠ "")

/-- `sdkConfig`. -/
def sdkConfig (env : ProcessEnv) (network : Network) (tenant : String) : SolvaConfig where
  network := network
  tenant := tenant
  endpoints :=
    { orchestratorUrl := truthy env.SOLVA_ORCHESTRATOR_URL
      rpcUrl := truthy env.SOLVA_RPC_URL
      contractId := truthy env.SOLVA_CONTRACT_ID }
  apiKey := truthy env.SOLVA_API_TOKEN

/-! ## Reads -/

/-- The requests to the orchestrator and the simulated call of a registry. -/
inductive OracleCall where
  | latestProof (orchestratorUrl tenant : String) (apiKey : Option String)
  | tenantContract (orchestratorUrl tenant : String) (apiKey : Option String)
  | latestEntry (rpcUrl networkPassphrase contractId : String)

/-- The replies; `none` is an exception. -/
abbrev OracleReply : OracleCall → Type
  | .latestProof _ _ _ => Option Proof
  | .tenantContract _ _ _ => Option String
  | .latestEntry _ _ _ => Option ProofMeta

abbrev OracleM (α : Type) : Type :=
  Program OracleCall OracleReply α

/-- `Solva.getLatestProof`. -/
def getLatestProof (config : SolvaConfig) : OracleM (Option Proof) :=
  Program.perform (OracleCall.latestProof (resolveConfig config).orchestratorUrl config.tenant
    config.apiKey)

/-- `Solva.resolveChain`: the contract that the chain client is built for. An explicit
one wins, and an empty one throws. -/
def resolveChain (config : SolvaConfig) : OracleM (Option String) := do
  let endpoints := resolveConfig config
  let contractId : Option String ←
    if endpoints.contractId = "" then
      Program.perform (OracleCall.tenantContract endpoints.orchestratorUrl config.tenant
        config.apiKey)
    else pure (some endpoints.contractId)
  pure (contractId.filter (· ≠ ""))

/-- `Solva.getOnChainLatestProof`. -/
def getOnChainLatestProof (config : SolvaConfig) : OracleM (Option ProofMeta) := do
  let contractId : Option String ← resolveChain config
  match contractId with
  | none => pure none
  | some contractId =>
      Program.perform (OracleCall.latestEntry (resolveConfig config).rpcUrl
        (resolveConfig config).networkPassphrase contractId)

/-! ## `solvency.ts` -/

/-- `reservesCoverLiabilities`. -/
def reservesCoverLiabilities (reservesTotal liabilitiesTotal : String) : Option Bool := do
  let reserves ← bigInt reservesTotal
  let liabilities ← bigInt liabilitiesTotal
  pure (reserves ≥ liabilities)

/-- `SolvencyDeps`. -/
structure SolvencyDeps where
  getLatestProof : String → OracleM (Option Proof)
  verifyOnChain : String → Proof → OracleM (Option Bool)

/-- `getSolvency`. -/
def getSolvency (tenant : String) (deps : SolvencyDeps) : OracleM (Option SolvencyResult) := do
  let proof? : Option Proof ← deps.getLatestProof tenant
  match proof? with
  | none => pure none
  | some proof =>
      let verified? : Option Bool ← deps.verifyOnChain tenant proof
      match verified? with
      | none => pure none
      | some verifiedOnChain =>
          let { reservesTotal, liabilitiesTotal, .. } := proof.publicInputs
          let covered? :=
            if verifiedOnChain then reservesCoverLiabilities reservesTotal liabilitiesTotal
            else some false
          pure (covered?.map fun solvent =>
            { status := if solvent then .solvent else .breach
              solvent := solvent
              reservesTotal := reservesTotal
              liabilitiesTotal := liabilitiesTotal
              proofId := proof.id
              verifiedOnChain := verifiedOnChain
              asOf := proof.publishedAt })

/-- `chainSolvencyDeps`. The check on chain does not look at the proof. -/
def chainSolvencyDeps (env : ProcessEnv) (network : Network) : SolvencyDeps where
  getLatestProof tenant := getLatestProof (sdkConfig env network tenant)
  verifyOnChain tenant _ := do
    let onChain? : Option ProofMeta ← getOnChainLatestProof (sdkConfig env network tenant)
    pure (some (match onChain? with
      | none => false
      | some onChain =>
          (reservesCoverLiabilities onChain.reservesTotal onChain.liabilitiesTotal).getD false))

/-! ## The database and the registries -/

/-- The stored proofs of the institutions behind an orchestrator, newest last, the
contracts it names, and the registries behind an RPC server. -/
structure World (Address : Type) where
  stored (orchestratorUrl tenant : String) : List Proof
  contractOf (orchestratorUrl tenant : String) : Option String
  registry (rpcUrl contractId : String) : Option (Contract.Storage Address)

section Worlds

variable {Address : Type}

/-- A registry in a new state. -/
def World.setRegistry (w : World Address) (rpcUrl contractId : String)
    (s : Contract.Storage Address) : World Address :=
  { w with
    registry := fun url id =>
      if url = rpcUrl ∧ id = contractId then some s else w.registry url id }

/-- What happens between two reads: the database becomes anything, a registry is
deployed, or one takes a call. -/
inductive Moves (hash4 : Hash4) (verifier : Contract.Verifier) :
    World Address → World Address → Prop
  | database {w : World Address} (stored : String → String → List Proof)
      (contractOf : String → String → Option String) :
      Moves hash4 verifier w { w with stored := stored, contractOf := contractOf }
  | deployed {w : World Address} {rpcUrl contractId : String} :
      w.registry rpcUrl contractId = none →
      Moves hash4 verifier w (w.setRegistry rpcUrl contractId Contract.Storage.empty)
  | called {w : World Address} {rpcUrl contractId : String} {s : Contract.Storage Address}
      (invocation : Contract.Invocation Address) : w.registry rpcUrl contractId = some s →
      Moves hash4 verifier w
        (w.setRegistry rpcUrl contractId (Contract.exec hash4 verifier s invocation).2)

/-- A read fails, or is answered as the world stands. -/
def Answers (c : OracleCall) (w : World Address) (reply : OracleReply c) (next : World Address) :
    Prop :=
  next = w ∧
    match c, reply with
    | .latestProof url tenant _, reply => reply = none ∨ reply = (w.stored url tenant).getLast?
    | .tenantContract url tenant _, reply => reply = none ∨ reply = w.contractOf url tenant
    | .latestEntry rpcUrl _ contractId, reply =>
        reply = none ∨ ∃ s entry, w.registry rpcUrl contractId = some s ∧
          Contract.getLatestProof s = .ok entry ∧ reply = some (toProofMeta entry)

end Worlds

/-! ## What a confirmed answer rests on -/

/-- Decimal totals are compared as numbers. -/
theorem reservesCoverLiabilities_repr (r l : Nat) :
    reservesCoverLiabilities (toString r) (toString l) = some (decide (l ≤ r)) := by
  have reserves : bigInt (toString r) = some (r : Int) := bigInt_repr r
  have liabilities : bigInt (toString l) = some (l : Int) := bigInt_repr l
  rw [reservesCoverLiabilities, reserves, liabilities]
  show some (decide ((r : Int) ≥ (l : Int))) = _
  congr 1
  exact decide_eq_decide.mpr Int.ofNat_le

section Runs

variable {Address : Type} {env : ProcessEnv} {network : Network} {tenant : String}
  {hash4 : Hash4} {verifier : Contract.Verifier} {start target : World Address}

/-- The contract that is read: the configured one, or the one that the orchestrator names
between two states. -/
def Resolves (env : ProcessEnv) (network : Network) (tenant : String) (hash4 : Hash4)
    (verifier : Contract.Verifier) (start target : World Address) (contractId : String) : Prop :=
  truthy env.SOLVA_CONTRACT_ID = some contractId ∨
    truthy env.SOLVA_CONTRACT_ID = none ∧ ∃ w, ReflTransGen (Moves hash4 verifier) start w ∧
      ReflTransGen (Moves hash4 verifier) w target ∧
      w.contractOf (resolveConfig (sdkConfig env network tenant)).orchestratorUrl tenant =
        some contractId

theorem contractId_resolveConfig :
    (resolveConfig (sdkConfig env network tenant)).contractId =
      (truthy env.SOLVA_CONTRACT_ID).getD "" := by
  cases network <;> rfl

theorem resolves_of_amid {contractId : String}
    (run : Program.Amid Answers (Moves hash4 verifier)
      (resolveChain (sdkConfig env network tenant)) start (some contractId) target) :
    Resolves env network tenant hash4 verifier start target contractId ∧
      ReflTransGen (Moves hash4 verifier) start target := by
  rw [resolveChain] at run
  dsimp only at run
  rw [contractId_resolveConfig] at run
  cases set : truthy env.SOLVA_CONTRACT_ID with
  | none =>
      rw [set, Option.getD_none, if_pos rfl] at run
      rcases Program.amid_bind_iff.mp run with ⟨found, middle, first, last⟩
      rcases Program.amid_ret_iff.mp last with ⟨kept, later⟩
      rcases Option.filter_eq_some_iff.mp kept.symm with ⟨rfl, _⟩
      rcases Program.amid_perform_iff.mp first with ⟨w, after, moved, ⟨rfl, answered⟩, onward⟩
      rcases answered with nothing | answered
      · cases nothing
      · exact ⟨Or.inr ⟨set, _, moved, onward.trans later, answered.symm⟩,
          moved.trans (onward.trans later)⟩
  | some configured =>
      have nonempty : configured ≠ "" :=
        of_decide_eq_true (Option.filter_eq_some_iff.mp set).2
      rw [set, Option.getD_some, if_neg nonempty] at run
      rcases Program.amid_ret_iff.mp run with ⟨kept, moved⟩
      rcases Option.filter_eq_some_iff.mp kept.symm with ⟨same, _⟩
      rw [Option.some.inj same] at set
      exact ⟨Or.inl set, moved⟩

/-- The latest entry that a read on chain returns. -/
theorem entry_of_amid {onChain : ProofMeta}
    (run : Program.Amid Answers (Moves hash4 verifier)
      (getOnChainLatestProof (sdkConfig env network tenant)) start (some onChain) target) :
    ∃ contractId w s entry, Resolves env network tenant hash4 verifier start w contractId ∧
      ReflTransGen (Moves hash4 verifier) start w ∧ ReflTransGen (Moves hash4 verifier) w target ∧
      w.registry (resolveConfig (sdkConfig env network tenant)).rpcUrl contractId = some s ∧
      Contract.getLatestProof s = .ok entry ∧ onChain = toProofMeta entry := by
  rcases Program.amid_bind_iff.mp run with ⟨found, middle, resolved, last⟩
  cases found with
  | none =>
      rcases Program.amid_ret_iff.mp last with ⟨nothing, _⟩
      cases nothing
  | some contractId =>
      rcases resolves_of_amid resolved with ⟨resolves, moved⟩
      rcases Program.amid_perform_iff.mp last with ⟨w, after, onward, ⟨rfl, answered⟩, later⟩
      rcases answered with nothing | ⟨s, entry, deployed, latest, same⟩
      · cases nothing
      · have reaches : Resolves env network tenant hash4 verifier start after contractId := by
          rcases resolves with set | ⟨unset, w, before, behind, named⟩
          · exact Or.inl set
          · exact Or.inr ⟨unset, w, before, behind.trans onward, named⟩
        exact ⟨contractId, after, s, entry, reaches, moved.trans onward, later, deployed, latest,
          Option.some.inj same⟩

/-- A confirmed answer reports the figures of one stored proof, the latest at the first
read. At the second read the registry's latest entry covered its liabilities. Whether
the answer is solvent is a matter of the stored figures. -/
theorem getSolvency_confirmed {result : SolvencyResult}
    (run : Program.Amid Answers (Moves hash4 verifier)
      (getSolvency tenant (chainSolvencyDeps env network)) start (some result) target)
    (verified : result.verifiedOnChain = true) :
    ∃ proof contractId first second s entry,
      ReflTransGen (Moves hash4 verifier) start first ∧
      ReflTransGen (Moves hash4 verifier) first second ∧
      ReflTransGen (Moves hash4 verifier) second target ∧
      (first.stored (resolveConfig (sdkConfig env network tenant)).orchestratorUrl
        tenant).getLast? = some proof ∧
      result.reservesTotal = proof.publicInputs.reservesTotal ∧
      result.liabilitiesTotal = proof.publicInputs.liabilitiesTotal ∧
      result.proofId = proof.id ∧ result.asOf = proof.publishedAt ∧
      Resolves env network tenant hash4 verifier first second contractId ∧
      second.registry (resolveConfig (sdkConfig env network tenant)).rpcUrl contractId = some s ∧
      Contract.getLatestProof s = .ok entry ∧ entry.l ≤ entry.r ∧
      reservesCoverLiabilities result.reservesTotal result.liabilitiesTotal = some result.solvent ∧
      (result.status = .solvent ↔ result.solvent = true) := by
  rcases Program.amid_bind_iff.mp run with ⟨stored, middle, read, rest⟩
  cases stored with
  | none =>
      rcases Program.amid_ret_iff.mp rest with ⟨nothing, _⟩
      cases nothing
  | some proof =>
      rcases Program.amid_perform_iff.mp read with ⟨before, first, moved, ⟨rfl, answered⟩, onward⟩
      rcases answered with nothing | latest
      · cases nothing
      rcases Program.amid_bind_iff.mp rest with ⟨checked, middle', check, last⟩
      cases checked with
      | none =>
          rcases Program.amid_ret_iff.mp last with ⟨nothing, _⟩
          cases nothing
      | some verifiedOnChain =>
          rcases Program.amid_ret_iff.mp last with ⟨built, later⟩
          rcases Option.map_eq_some_iff.mp built.symm with ⟨solvent, covered, rfl⟩
          obtain rfl : verifiedOnChain = true := verified
          rcases Program.amid_bind_iff.mp check with ⟨onChain, middle'', chain_read, outcome⟩
          rcases Program.amid_ret_iff.mp outcome with ⟨accepted, later'⟩
          cases onChain with
          | none => cases accepted
          | some onChain =>
              rcases entry_of_amid chain_read with ⟨contractId, second, s, entry, resolves, toward,
                beyond, deployed, entry_latest, rfl⟩
              have covers : entry.l ≤ entry.r := by
                have accepted := (Option.some.inj accepted).symm
                dsimp only [toProofMeta] at accepted
                rw [reservesCoverLiabilities_repr, Option.getD_some, decide_eq_true_eq] at accepted
                exact accepted
              have reaches :
                  Resolves env network tenant hash4 verifier first second contractId := by
                rcases resolves with set | ⟨unset, w, before, behind, named⟩
                · exact Or.inl set
                · exact Or.inr ⟨unset, w, onward.trans before, behind, named⟩
              refine ⟨proof, contractId, first, second, s, entry, moved, onward.trans toward,
                beyond.trans (later'.trans later), latest.symm, rfl, rfl, rfl, rfl, reaches,
                deployed, entry_latest, covers, covered, ?_⟩
              cases solvent <;> simp

end Runs

/-! ## Stored figures that no entry holds -/

/-- An oracle that asks the orchestrator for everything. -/
def sampleEnv : ProcessEnv :=
  ⟨none, none, none, none⟩

/-- A registry with one entry: reserves of 400 against liabilities of 360. -/
def sampleRegistry : Contract.Storage Bool :=
  Contract.sampleCalls.foldl
    (fun s invocation =>
      (Contract.exec Prover.Poseidon2.poseidon2Perm4 Contract.sampleVerifier s invocation).2)
    Contract.Storage.empty

/-- The only entry, under the first id. -/
def sampleEntry : Contract.ProofMeta :=
  { rootH := Contract.sampleInputs.rootHash
    r := Contract.sampleInputs.reservesTotal
    l := Contract.sampleInputs.liabilitiesTotal
    timestamp := 1 }

/-- A stored proof that is not the registry's. -/
def sampleProof : Proof :=
  ⟨"p2", "", ⟨"1000", "800", "00", "1000"⟩, 7⟩

def sampleWorld : World Bool where
  stored _ _ := [sampleProof]
  contractOf _ _ := some "C"
  registry _ _ := some sampleRegistry

def sampleAnswer : SolvencyResult :=
  ⟨.solvent, true, "1000", "800", "p2", true, 7⟩

theorem getLatestProof_sampleRegistry :
    Contract.getLatestProof sampleRegistry = .ok sampleEntry := by
  decide +kernel

theorem reservesCoverLiabilities_sampleProof :
    reservesCoverLiabilities "1000" "800" = some true := by
  decide +kernel

theorem amid_sampleWorld :
    Program.Amid Answers (Moves Prover.Poseidon2.poseidon2Perm4 Contract.sampleVerifier)
      (getSolvency "bank" (chainSolvencyDeps sampleEnv .testnet)) sampleWorld (some sampleAnswer)
      sampleWorld := by
  apply Program.amid_bind_iff.mpr
  refine ⟨some sampleProof, sampleWorld,
    Program.amid_perform_iff.mpr ⟨sampleWorld, sampleWorld, .refl, ⟨rfl, Or.inr rfl⟩, .refl⟩, ?_⟩
  apply Program.amid_bind_iff.mpr
  refine ⟨some true, sampleWorld, ?_, Program.amid_ret_iff.mpr ⟨?_, .refl⟩⟩
  · apply Program.amid_bind_iff.mpr
    refine ⟨some (toProofMeta sampleEntry), sampleWorld, ?_,
      Program.amid_ret_iff.mpr ⟨?_, .refl⟩⟩
    · apply Program.amid_bind_iff.mpr
      refine ⟨some "C", sampleWorld, ?_, Program.amid_perform_iff.mpr ⟨sampleWorld, sampleWorld,
        .refl, ⟨rfl, Or.inr ⟨sampleRegistry, sampleEntry, rfl, getLatestProof_sampleRegistry, rfl⟩⟩,
        .refl⟩⟩
      apply Program.amid_bind_iff.mpr
      exact ⟨some "C", sampleWorld, Program.amid_perform_iff.mpr ⟨sampleWorld, sampleWorld, .refl,
        ⟨rfl, Or.inr rfl⟩, .refl⟩, Program.amid_ret_iff.mpr ⟨rfl, .refl⟩⟩
    · show some true = some ((reservesCoverLiabilities (toString 400) (toString 360)).getD false)
      rw [reservesCoverLiabilities_repr]
      rfl
  · show some sampleAnswer = (reservesCoverLiabilities "1000" "800").map _
    rw [reservesCoverLiabilities_sampleProof]
    rfl

/-- Nothing moves between the reads, and the figures of a confirmed answer are those of
no entry of the institution's registry. -/
theorem getSolvency_unmatched :
    Program.Amid Answers (Moves Prover.Poseidon2.poseidon2Perm4 Contract.sampleVerifier)
        (getSolvency "bank" (chainSolvencyDeps sampleEnv .testnet)) sampleWorld
        (some sampleAnswer) sampleWorld ∧
      Run (Contract.callStep Prover.Poseidon2.poseidon2Perm4 Contract.sampleVerifier)
        Contract.Storage.empty Contract.sampleCalls sampleRegistry ∧
      sampleWorld.contractOf (DEFAULTS .testnet).orchestratorUrl "bank" = some "C" ∧
      sampleWorld.registry (DEFAULTS .testnet).rpcUrl "C" = some sampleRegistry ∧
      sampleAnswer.verifiedOnChain = true ∧
      ∀ id entry, sampleRegistry.proofs id = some entry →
        sampleAnswer.reservesTotal ≠ toString entry.r.val ∧
        sampleAnswer.liabilitiesTotal ≠ toString entry.l.val := by
  have run : Run (Contract.callStep Prover.Poseidon2.poseidon2Perm4 Contract.sampleVerifier)
      Contract.Storage.empty Contract.sampleCalls sampleRegistry :=
    (run_ofFunction_iff _ _ _ _).mpr rfl
  have latest : sampleRegistry.latest = 1 := by decide +kernel
  have found : sampleRegistry.proofs 1 = some sampleEntry := by decide +kernel
  refine ⟨amid_sampleWorld, run, rfl, rfl, rfl, ?_⟩
  intro id entry stored
  have bounds := ((Contract.Dense.empty.run run).1.exists_iff id).mp (by rw [stored]; rfl)
  rw [latest] at bounds
  obtain rfl : id = 1 := Fin.ext (Nat.le_antisymm bounds.2 bounds.1)
  rw [found] at stored
  cases stored
  decide

/-- Here an answer is confirmed without a move. -/
theorem getSolvency_confirmed_sample :
    ∃ proof contractId first second s entry,
      ReflTransGen (Moves Prover.Poseidon2.poseidon2Perm4 Contract.sampleVerifier) sampleWorld
        first ∧
      ReflTransGen (Moves Prover.Poseidon2.poseidon2Perm4 Contract.sampleVerifier) first second ∧
      ReflTransGen (Moves Prover.Poseidon2.poseidon2Perm4 Contract.sampleVerifier) second
        sampleWorld ∧
      (first.stored (resolveConfig (sdkConfig sampleEnv .testnet "bank")).orchestratorUrl
        "bank").getLast? = some proof ∧
      sampleAnswer.reservesTotal = proof.publicInputs.reservesTotal ∧
      sampleAnswer.liabilitiesTotal = proof.publicInputs.liabilitiesTotal ∧
      sampleAnswer.proofId = proof.id ∧ sampleAnswer.asOf = proof.publishedAt ∧
      Resolves sampleEnv .testnet "bank" Prover.Poseidon2.poseidon2Perm4 Contract.sampleVerifier
        first second contractId ∧
      second.registry (resolveConfig (sdkConfig sampleEnv .testnet "bank")).rpcUrl contractId =
        some s ∧
      Contract.getLatestProof s = .ok entry ∧ entry.l ≤ entry.r ∧
      reservesCoverLiabilities sampleAnswer.reservesTotal sampleAnswer.liabilitiesTotal =
        some sampleAnswer.solvent ∧
      (sampleAnswer.status = .solvent ↔ sampleAnswer.solvent = true) :=
  getSolvency_confirmed amid_sampleWorld rfl

end Solva.Oracle
