import KonaSoon.Programs.Instruction

namespace KonaSoon.Programs
open Lib Mpt

/-- `L1BLockinfo11111111111111111111111111111111`. -/
def l1BlockInfoId : Pubkey := .ofNat 0x04de3caa928e0c65cd3fcb2f5e11c605f28fd7a198079b180173e31600000000

inductive L1BlockInfoInstruction where
  | createL1BlockInfoAccount
  | updateL1BlockInfo (number timestamp : UInt64) (baseFee : BitVec 128) (hash : B256) (sequenceNumber : UInt64)
      (batcherHash : B256) (feeOverhead feeScalar : BitVec 128) (gas : UInt64) (isSystemTx : Bool)
deriving DecidableEq, Repr

def L1BlockInfoInstruction.pack : L1BlockInfoInstruction → List UInt8
  | createL1BlockInfoAccount => [0]
  | updateL1BlockInfo number timestamp baseFee hash sequenceNumber batcherHash feeOverhead feeScalar gas isSystemTx =>
      1 :: (packU64 number ++ (packU64 timestamp ++ (packU128 baseFee ++ (hash.1 ++ (packU64 sequenceNumber ++
        (batcherHash.1 ++ (packU128 feeOverhead ++ (packU128 feeScalar ++ (packU64 gas ++ packBool isSystemTx)))))))))

namespace L1BlockInfoInstruction

def unpackUpdate (rest : List UInt8) : Option L1BlockInfoInstruction := do
  let (number, rest) ← unpackU64 rest
  let (timestamp, rest) ← unpackU64 rest
  let (baseFee, rest) ← unpackU128 rest
  let (hash, rest) ← unpackBytes32 rest
  let (sequenceNumber, rest) ← unpackU64 rest
  let (batcherHash, rest) ← unpackBytes32 rest
  let (feeOverhead, rest) ← unpackU128 rest
  let (feeScalar, rest) ← unpackU128 rest
  let (gas, rest) ← unpackU64 rest
  let (isSystemTx, _) ← unpackBool rest
  return .updateL1BlockInfo number timestamp baseFee hash sequenceNumber batcherHash feeOverhead feeScalar gas isSystemTx

def unpack (input : List UInt8) : Option L1BlockInfoInstruction := do
  let (tag, rest) ← unpackU8 input
  match tag with
  | 0 => return .createL1BlockInfoAccount
  | 1 => unpackUpdate rest
  | _ => none

theorem unpack_pack_append (instruction : L1BlockInfoInstruction) (rest : List UInt8) :
    unpack (instruction.pack ++ rest) = some instruction := by
  cases instruction with
  | createL1BlockInfoAccount => rfl
  | updateL1BlockInfo number timestamp baseFee hash sequenceNumber batcherHash feeOverhead feeScalar gas isSystemTx =>
      simp only [pack, List.append_assoc, List.cons_append]
      refine bind_eq_some_of (unpackU8_cons 1 _) ?_
      simp only
      refine bind_eq_some_of (unpackU64_packU64_append number _) ?_
      refine bind_eq_some_of (unpackU64_packU64_append timestamp _) ?_
      refine bind_eq_some_of (unpackU128_packU128_append baseFee _) ?_
      refine bind_eq_some_of (unpackBytes32_append hash _) ?_
      refine bind_eq_some_of (unpackU64_packU64_append sequenceNumber _) ?_
      refine bind_eq_some_of (unpackBytes32_append batcherHash _) ?_
      refine bind_eq_some_of (unpackU128_packU128_append feeOverhead _) ?_
      refine bind_eq_some_of (unpackU128_packU128_append feeScalar _) ?_
      refine bind_eq_some_of (unpackU64_packU64_append gas _) ?_
      exact bind_eq_some_of (unpackBool_packBool_append isSystemTx rest) rfl

theorem unpack_pack (instruction : L1BlockInfoInstruction) : unpack instruction.pack = some instruction := by
  have whole := unpack_pack_append instruction []
  rwa [List.append_nil] at whole

end L1BlockInfoInstruction

def l1BlockInfoPubkey (findProgramAddress : FindProgramAddress) : Pubkey :=
  findProgramAddress ["l1-block-info".toUTF8.data.toList] l1BlockInfoId

def updateL1BlockInfo (findProgramAddress : FindProgramAddress) (number timestamp : UInt64) (baseFee : BitVec 128)
    (hash : B256) (sequenceNumber : UInt64) (batcherHash : B256) (feeOverhead feeScalar : BitVec 128) (gas : UInt64)
    (isSystemTx : Bool) : Instruction where
  programId := l1BlockInfoId
  accounts := [.new (l1BlockInfoPubkey findProgramAddress) false, .newReadonly noSigTxPayer true]
  data := (L1BlockInfoInstruction.updateL1BlockInfo number timestamp baseFee hash sequenceNumber batcherHash feeOverhead
    feeScalar gas isSystemTx).pack

end KonaSoon.Programs
