import Usdd.Foundation.Sha256
/-!
# Hashes and domain separation

Every commitment of the protocol is a 32-byte digest. SHA-256 itself is supplied from outside:
the records and checks below are parametric in it, and a result that needs a property of the
digest names that property. Domain separation is defined here, over whatever digest is given.
-/
namespace Usdd.Core

open Usdd.Foundation

/-- `hash::Hash32`: a 32-byte digest. -/
abbrev Hash32 := FixedBytes 32

/-- `types::EthAddress`: a 20-byte Ethereum address. -/
abbrev EthAddress := FixedBytes 20

/-- `Hash32::ZERO`. -/
abbrev Hash32.zero : Hash32 := FixedBytes.zero 32

/-- `EthAddress::ZERO`. -/
abbrev EthAddress.zero : EthAddress := FixedBytes.zero 20

/-- The digest function that Rust, Solidity and TypeScript share. -/
class Hashing where
  /-- SHA-256 of a byte string. -/
  sha256 : List UInt8 → Hash32

/-- SHA-256 as the digest function. -/
@[reducible]
def sha256Hashing : Hashing := ⟨sha256⟩

/-- SHA-256 where a message whose digest were zero gets the digest one. -/
@[reducible]
def nonzeroSha256Hashing : Hashing :=
  ⟨fun message => if sha256 message = Hash32.zero then .ofNat 32 1 else sha256 message⟩

/-- The second digest function is never zero. -/
theorem nonzeroSha256_ne (message : List UInt8) :
    nonzeroSha256Hashing.sha256 message ≠ .zero := by
  change (if _ then _ else _) ≠ _
  split
  · decide
  · assumption

/-- `hash::hash_bytes`. -/
def hashBytes [Hashing] (bytes : List UInt8) : Hash32 := Hashing.sha256 bytes

/-- The bytes of an ASCII literal. -/
def asciiBytes (text : String) : List UInt8 :=
  text.toList.map fun letter => UInt8.ofNat letter.toNat

/-- `lib::ENCODING_SCHEMA`. -/
def encodingSchema : UInt16 := 2

/-- `hash::Domain`. -/
inductive Domain where
  | merkleLeaf
  | merkleEmptyLeaf
  | merkleNode
  | manifest
  | controllerConfig
  | outboundVerifierConfig
  | ethereumStateClaim
  | elementsEventClaim
  | depositPublicOutput
deriving DecidableEq

/-- `Domain::as_str`. -/
def Domain.asStr : Domain → String
  | .merkleLeaf => "USDD/1/merkle-leaf"
  | .merkleEmptyLeaf => "USDD/1/merkle-empty-leaf"
  | .merkleNode => "USDD/1/merkle-node"
  | .manifest => "USDD/1/manifest"
  | .controllerConfig => "USDD/1/controller-config"
  | .outboundVerifierConfig => "USDD/1/outbound-verifier-config"
  | .ethereumStateClaim => "USDD/1/claim/ethereum-state"
  | .elementsEventClaim => "USDD/1/claim/elements-event"
  | .depositPublicOutput => "USDD/1/public/deposit"

/-- The preimage of `domain_hash`: `"USDD" || schema:u16 || domain_len:u16 || domain ||
payload_len:u32 || payload`. A payload of 2^32 bytes or more aborts the Rust program; no record
of the protocol reaches that length, and here its length is written modulo 2^32. -/
def domainPreimage (domain : Domain) (payload : List UInt8) : List UInt8 :=
  let domainBytes := asciiBytes domain.asStr
  [asciiBytes "USDD", beBytes 2 encodingSchema.toNat, beBytes 2 domainBytes.length, domainBytes,
    beBytes 4 payload.length, payload].flatten

/-- `hash::domain_hash`. -/
def domainHash [Hashing] (domain : Domain) (payload : List UInt8) : Hash32 :=
  hashBytes (domainPreimage domain payload)

/-- `hash::DOMAIN_SEPARATOR_TABLE_V1`, line by line. -/
def domainSeparatorTableV1 : List String :=
  ["USDD/1/merkle-leaf\n",
    "USDD/1/merkle-empty-leaf\n",
    "USDD/1/merkle-node\n",
    "USDD/1/manifest\n",
    "USDD/1/controller-config\n",
    "USDD/1/outbound-verifier-config\n",
    "USDD/1/claim/ethereum-state\n",
    "USDD/1/claim/elements-event\n",
    "USDD/1/public/deposit\n",
    "keccak256:USDD_VAULT_ID_V1\n",
    "keccak256:USDD_DEPOSIT_ID_V1\n",
    "keccak256:USDD_ELEMENTS_STATE_V1\n",
    "keccak256:USDD_ELEMENTS_STATEMENT_V1\n",
    "keccak256:USDD_BURN_LEAF_V1\n",
    "sha256:USDD_BURN_ID_V1\n"]

/-- `hash::domain_separator_table_hash`. -/
def domainSeparatorTableHash [Hashing] : Hash32 :=
  hashBytes (domainSeparatorTableV1.flatMap asciiBytes)

end Usdd.Core
