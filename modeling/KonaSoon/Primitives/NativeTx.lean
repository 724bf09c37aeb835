import KonaSoon.Programs.BridgeInstruction
import KonaSoon.Programs.L1BlockInfo

namespace KonaSoon
open Mpt Programs

structure CompiledInstruction where
  programIdIndex : UInt8
  accounts : List UInt8
  data : List UInt8
deriving DecidableEq, Repr

structure MessageAddressTableLookup where
  accountKey : Pubkey
  writableIndexes : List UInt8
  readonlyIndexes : List UInt8
deriving DecidableEq, Repr

structure VersionedMessage where
  numRequiredSignatures : UInt8
  numReadonlySignedAccounts : UInt8
  numReadonlyUnsignedAccounts : UInt8
  staticAccountKeys : List Pubkey
  recentBlockhash : B256
  instructions : List CompiledInstruction
  addressTableLookups : Option (List MessageAddressTableLookup)
deriving DecidableEq, Repr

structure VersionedTransaction where
  signatures : List (List UInt8)
  message : VersionedMessage
deriving DecidableEq, Repr

namespace VersionedTransaction

/-- Whether an instruction meets a condition on its program and its data. There is no answer if a program
index before it is out of range, where the source panics. -/
def anyInstruction (tx : VersionedTransaction) (condition : Pubkey → List UInt8 → Bool) : Option Bool :=
  tx.message.instructions.anyM fun ix => do
    let program ← tx.message.staticAccountKeys[ix.programIdIndex.toNat]?
    return condition program ix.data

def hasUpdateL1BlockInfoInstruction (tx : VersionedTransaction) : Option Bool :=
  tx.anyInstruction fun program _ => program = l1BlockInfoId

def hasDerivedBridgeInstruction (tx : VersionedTransaction) : Option Bool :=
  tx.anyInstruction fun program data =>
    program = withdrawalProgramPubkey && ((BridgeInstruction.unpack data).map (·.isDerived)).getD false

def hasNativeInstruction (tx : VersionedTransaction) : Option Bool := do
  if ← tx.hasUpdateL1BlockInfoInstruction then return true else tx.hasDerivedBridgeInstruction

end VersionedTransaction

def VersionedMessage.calls (message : VersionedMessage) : List (Option Pubkey × List UInt8) :=
  message.instructions.map fun ix => (message.staticAccountKeys[ix.programIdIndex.toNat]?, ix.data)

theorem VersionedTransaction.anyInstruction_single {tx : VersionedTransaction} {program : Pubkey} {data : List UInt8}
    (calls : tx.message.calls = [(some program, data)]) (condition : Pubkey → List UInt8 → Bool) :
    tx.anyInstruction condition = some (condition program data) := by
  obtain ⟨ix, single, call⟩ := List.map_eq_singleton_iff.mp calls
  obtain ⟨found, rfl⟩ := Prod.mk.inj call
  rw [anyInstruction, single]
  simp only [List.anyM, found, Option.bind_eq_bind, Option.bind_some, Option.pure_def]
  cases condition program ix.data with
  | false => rfl
  | true => rfl

structure Solana where
  findProgramAddress : FindProgramAddress
  newWithBlockhash : List Instruction → Option Pubkey → B256 → VersionedMessage
  sanitize : VersionedTransaction → Except String Unit

/-- A message calls the programs of the instructions that it is made of, unless they have more keys than
an index can name. -/
def Solana.CompilesCalls (solana : Solana) : Prop :=
  ∀ instructions payer blockhash, (instructions.flatMap fun ix => ix.programId :: ix.accounts.map (·.pubkey)).length < 256 →
    (solana.newWithBlockhash instructions payer blockhash).calls =
      instructions.map fun ix => (some ix.programId, ix.data)

def hashToSignature (hash : B256) : List UInt8 := hash.1 ++ List.replicate 32 0

/-- There is no result where the message has no place for a signature. -/
def newNativeTransaction (solana : Solana) (instructions : List Instruction) (sourceHash : B256) :
    Option VersionedTransaction :=
  let message := solana.newWithBlockhash instructions (some noSigTxPayer) sourceHash
  match List.replicate message.numRequiredSignatures.toNat (List.replicate 64 0) with
  | [] => none
  | _ :: signatures => some ⟨hashToSignature sourceHash :: signatures, message⟩

theorem newNativeTransaction_calls {solana : Solana} (compiles : solana.CompilesCalls) {ix : Instruction}
    (small : ix.accounts.length < 255) {sourceHash : B256} {tx : VersionedTransaction}
    (creates : newNativeTransaction solana [ix] sourceHash = some tx) :
    tx.message.calls = [(some ix.programId, ix.data)] := by
  simp only [newNativeTransaction] at creates
  split at creates
  · cases creates
  · cases creates
    refine compiles [ix] _ _ ?_
    simp only [List.flatMap_cons, List.flatMap_nil, List.append_nil, List.length_cons, List.length_map]
    omega

inductive L2Transaction where
  | head (length : UInt64) (tx : VersionedTransaction)
  | body (tx : VersionedTransaction)
deriving DecidableEq, Repr

def L2Transaction.transaction : L2Transaction → VersionedTransaction
  | head _ tx => tx
  | body tx => tx

def L2Transaction.newFromDerivedTx (tx : VersionedTransaction) : L2Transaction := .head 1 tx

abbrev BincodeDeserialize := List UInt8 → Option L2Transaction

def isNative (deserialize : BincodeDeserialize) (bytes : List UInt8) : Bool :=
  ((deserialize bytes).bind fun tx => tx.transaction.hasNativeInstruction) = some true

end KonaSoon
