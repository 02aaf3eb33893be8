import Amana.Escrow.Admin

/-!
# Evidence, video proof and manifest

The three entrypoints that anchor documents beside a trade without touching the trade itself.
-/

namespace Amana.Escrow

open Lib

def submitEvidence (env : Env) (tradeId : Nat) (caller : Address)
    (ipfsHash descriptionHash : String) (s : State) : Outcome State := do
  requireAuth env caller
  assert (ipfsHash.utf8ByteSize ≠ 0) "ipfs_hash must not be empty"
  assert (ipfsHash.utf8ByteSize ≤ maxHashLen) "ipfs_hash exceeds max length"
  assert (descriptionHash.utf8ByteSize ≤ maxHashLen) "description_hash exceeds max length"
  let trade ← loadTrade s tradeId
  assert (trade.status = .disputed) "Evidence can only be submitted for a Disputed trade"
  assert ((caller = trade.buyer ∨ caller = trade.seller) ∨ isMediator s caller = true)
    "Only buyer, seller, or mediator can submit evidence"
  let list := (s.evidenceList.get tradeId).getD []
  let record : EvidenceRecord := ⟨caller, ipfsHash, descriptionHash, env.timestamp⟩
  -- The legacy slot only ever holds an empty byte string.
  let s :=
    { s with
      evidenceList := s.evidenceList.set tradeId (list ++ [record])
      evidence := s.evidence.set (tradeId, caller) [] }
  return publish s (.evidenceSubmitted tradeId caller [])

def submitVideoProof (env : Env) (tradeId : Nat) (submitter : Address) (ipfsCid : String)
    (s : State) : Outcome State := do
  requireAuth env submitter
  assert (ipfsCid.utf8ByteSize ≠ 0) "ipfs_cid must not be empty"
  assert (ipfsCid.utf8ByteSize ≤ maxHashLen) "ipfs_cid exceeds max length"
  let trade ← loadTrade s tradeId
  assert (trade.status = .funded ∨ trade.status = .disputed)
    "Video proof can only be submitted for a Funded or Disputed trade"
  assert (submitter = trade.buyer ∨ submitter = trade.seller)
    "Only the buyer or seller can submit video proof"
  assert (s.videoProof.has tradeId = false) "Video proof already submitted for this trade"
  let now := env.timestamp
  let s := { s with videoProof := s.videoProof.set tradeId ⟨submitter, ipfsCid, now⟩ }
  return publish s (.videoProofSubmitted tradeId submitter ipfsCid now)

def submitManifest (env : Env) (tradeId : Nat) (seller : Address)
    (driverNameHash driverIdHash : String) (s : State) : Outcome State := do
  requireAuth env seller
  assert (driverNameHash.utf8ByteSize ≠ 0) "driver_name_hash must not be empty"
  assert (driverIdHash.utf8ByteSize ≠ 0) "driver_id_hash must not be empty"
  assert (driverNameHash.utf8ByteSize ≤ maxHashLen) "driver_name_hash exceeds max length"
  assert (driverIdHash.utf8ByteSize ≤ maxHashLen) "driver_id_hash exceeds max length"
  let trade ← loadTrade s tradeId
  assert (trade.status = .funded) "Trade must be funded"
  assert (seller = trade.seller) "Only seller can submit manifest"
  assert (s.manifest.has tradeId = false) "Manifest already submitted"
  let now := env.timestamp
  let s :=
    { s with manifest := s.manifest.set tradeId ⟨seller, driverNameHash, driverIdHash, now⟩ }
  let s := updateReleaseSequence env s trade fun sequence now =>
    { sequence with manifestSubmittedAt := some now }
  return publish s (.manifestSubmitted tradeId seller driverNameHash driverIdHash now)

end Amana.Escrow
