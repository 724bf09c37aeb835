import KonaSoon.Mpt.Node

namespace KonaSoon
open Mpt

structure BlockNumHash where
  number : UInt64
  hash : B256
deriving DecidableEq, Repr

structure BlockInfo where
  hash : B256
  number : UInt64
  parentHash : B256
  timestamp : UInt64
deriving DecidableEq, Repr

def BlockInfo.id (block : BlockInfo) : BlockNumHash := ⟨block.number, block.hash⟩

structure L2BlockInfo where
  blockInfo : BlockInfo
  l1Origin : BlockNumHash
  seqNum : UInt64
deriving DecidableEq, Repr

structure L2BlockHeader where
  blockInfo : BlockInfo
  accountRoot : B256
  widthdrawRoot : B256
deriving DecidableEq, Repr

end KonaSoon
