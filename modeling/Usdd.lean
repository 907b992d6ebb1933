import Usdd.Foundation.Bytes
import Usdd.Foundation.Checks
import Usdd.Core.Encoding
import Usdd.Foundation.Reentrant
import Usdd.Foundation.SparseTree
import Usdd.Core.Deposit
import Usdd.Core.MintBatch
import Usdd.Core.Controller
import Usdd.Foundation.Attempts
import Usdd.Verif.ControllerRuns
import Usdd.Core.BurnAccumulator
import Usdd.Core.Burn
import Usdd.Core.ElementsState
import Usdd.Foundation.Keccak
import Usdd.Foundation.Sha256
import Usdd.Contracts.Sha256SparseMerkle
import Usdd.Contracts.ExactSafeERC20
import Usdd.Contracts.Vault
import Usdd.Contracts.VaultLaws
import Usdd.Spec.VaultHistory
import Usdd.Verif.VaultRuns
import Usdd.TypeScript.ElementsState
import Usdd.Verif.ElementsSuccessor
import Usdd.Core.Codec
import Usdd.Core.Manifest
import Usdd.ProofCore.Claims
import Usdd.ProofCore.Journal
import Usdd.ProofCore.Guest
import Usdd.ProofCore.GuestLaws
import Usdd.Verif.BurnTree
import Usdd.Verif.SharedPreimages
import Usdd.Verif.ElementsStatement
import Usdd.Verif.Redemptions
import Usdd.Verif.Redeemability
import Usdd.Foundation.Readers
import Usdd.Core.Payloads
import Usdd.ProofCore.ClaimCodecs
import Usdd.Core.CodecLaws
import Usdd.ProofCore.CodecLaws
import Usdd.Verif.CanonicalCodecs
import Usdd.ProofCore.JournalCodec
import Usdd.ProofCore.Annex
import Usdd.ProofCore.TypedPayload
import Usdd.Verif.Envelopes
import Usdd.Foundation.Limbs
import Usdd.BitcoinBmm.Uint256
import Usdd.BitcoinBmm.Headers
import Usdd.Verif.HeaderRuns
import Usdd.BitcoinBmm.Blocks
import Usdd.BitcoinBmm.BlockReaders
import Usdd.BitcoinBmm.BlockGrammar
import Usdd.BitcoinBmm.BlockLaws
import Usdd.Verif.BlockParser
import Usdd.BitcoinBmm.M7
import Usdd.BitcoinBmm.Bip300
import Usdd.BitcoinBmm.Bip300Laws
import Usdd.BitcoinBmm.Bip300Messages
import Usdd.Verif.ReplayRuns
import Usdd.Verif.M7Readers
import Usdd.Verif.Treasury
import Usdd.BitcoinBmm.Bip300Validity
import Usdd.BitcoinBmm.Bip300Answers
import Usdd.Verif.ReplayLiveness
import Usdd.Foundation.Mirrors
import Usdd.TypeScript.Decoder
import Usdd.TypeScript.Records
import Usdd.TypeScript.RecordLaws
import Usdd.TypeScript.SlicedRecords
import Usdd.TypeScript.Claims
import Usdd.TypeScript.ClaimLaws
import Usdd.TypeScript.Envelopes
import Usdd.TypeScript.EnvelopeLaws
import Usdd.Simplicity.Formats
import Usdd.Verif.ClientCodecs
import Usdd.Verif.AnnexDecoders
import Usdd.EthereumInbound.Helios
import Usdd.EthereumInbound.HeliosLaws
import Usdd.Simplicity.Burns
import Usdd.Simplicity.Controller
import Usdd.Simplicity.Transactions
import Usdd.Verif.BurnDecoders
import Usdd.Verif.ControllerModels
import Usdd.Verif.MerkleMutation
import Usdd.Verif.PreimageSeparation
import Usdd.Verif.SlotRules
import Usdd.Verif.SupplyConservation
import Usdd.Contracts.Htlc
import Usdd.Contracts.HtlcLaws
import Usdd.Verif.HtlcRuns
import Usdd.Verif.LightClientRuns
import Usdd.EthereumInbound.VaultWitness
import Usdd.EthereumInbound.VaultWitnessLaws
import Usdd.Guests.EthereumState
import Usdd.Verif.DepositJournals
import Usdd.Verif.DepositLiveness
import Usdd.Core.Audit
import Usdd.Core.AuditLaws
import Usdd.Verif.Conservation
import Usdd.EthereumInbound.DepositBatch
import Usdd.Verif.MintSoundness
import Usdd.BitcoinBmm.Signet
import Usdd.TypeScript.BurnTree
import Usdd.Verif.BurnProofs
import Usdd.Verif.StrictDer
import Usdd.Core.Merkle
import Usdd.Verif.MerkleProofs
import Usdd.BitcoinBmm.CompactLaws
import Usdd.BitcoinBmm.SignetLaws
import Usdd.Verif.BlockWork
import Usdd.Verif.CoinbaseScripts
import Usdd.Verif.CompactTargets
import Usdd.Verif.Retargeting
import Usdd.Verif.SignetChallenge
import Usdd.Verif.CountPrefixes
import Usdd.Verif.LimbArithmetic
import Usdd.Contracts.VerifierPreflight
import Usdd.Core.GateLaws
import Usdd.Sp1Verifier.RawProofs
import Usdd.TypeScript.BurnClaims
import Usdd.Verif.AuditExactness
import Usdd.Verif.BurnValidators
import Usdd.Verif.LaunchReadiness
import Usdd.Verif.PreflightScan
import Usdd.Verif.ProgramIds
import Usdd.Verif.VaultWitnesses
import Usdd.EthereumInbound.DepositBatchLaws
import Usdd.Verif.DepositAgreement
import Usdd.Foundation.TimedSwaps
import Usdd.Simplicity.InventoryHtlc
import Usdd.Verif.AtomicSwap
import Usdd.Verif.SwapTerms
import Usdd.Foundation.HashChains
import Usdd.BitcoinBmm.ParentTransitions
import Usdd.Verif.BlockIdentity
import Usdd.Verif.ParentRuns
import Usdd.Core.HashText
import Usdd.Cli.Commands
import Usdd.Verif.AuditReplay
import Usdd.Verif.CommandRoundTrips
import Usdd.Verif.ControllerTraces
import Usdd.Verif.JournalDelivery
import Usdd.Verif.PrintedRedemptions
import Usdd.Verif.BurnLiveness
import Usdd.Verif.BatchLiveness
