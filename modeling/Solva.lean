import Solva.Transition.Core
import Solva.Orchestrator.CycleLock
import Solva.Orchestrator.LatestProof
import Solva.Orchestrator.ScheduledProof
import Solva.Codec.BigEndian
import Solva.Codec.Hex
import Solva.Codec.Decimal
import Solva.Codec.Json
import Solva.Passkey.AuthenticatorData
import Solva.Codec.Numeral
import Solva.Circuit.TreeParity
import Solva.Prover.Completeness
import Solva.Prover.TreeSums
import Solva.Prover.Permutation
import Solva.Contract.History
import Solva.Contract.Inclusion
import Solva.Contract.Binding
import Solva.Contract.Lifetime
import Solva.Shared.AnomalyThresholds
import Solva.Website.FormatAmount
import Solva.Sdk.LeafParity
import Solva.Orchestrator.Baseline
import Solva.Orchestrator.Insolvency
import Solva.Orchestrator.OnChainReserves
import Solva.Stellar.PublicInputs
import Solva.Sandbox.Payload
import Solva.Orchestrator.AttestedSnapshot
import Solva.Stellar.Authorisation
import Solva.Stellar.ExactlyOnce
import Solva.Oracle.Solvency
import Solva.Verifier.Sumcheck
import Solva.Verifier.PoseidonGates
import Solva.Codec.Keccak
import Solva.Verifier.Shplemini
import Solva.Verifier.Binding
import Solva.Verifier.Openings
import Solva.Sumcheck.Separation
import Solva.Permutation.GrandProduct
import Solva.Verifier.Verify
import Solva.Verifier.Soundness
import Solva.Verifier.Copies
