import KonaSoon.Mpt.Node

namespace KonaSoon
open Mpt

abbrev Pubkey := B256

abbrev Address := { bytes : List UInt8 // bytes.length = 20 }

theorem length_zeroAddress : (List.replicate 20 (0 : UInt8)).length = 20 := rfl

theorem length_noBytes : ([] : List UInt8).length < 2 ^ 63 := by decide

/-- `AccountSharedData`. -/
structure Account where
  lamports : UInt64
  data : Bytes
  owner : Pubkey
  executable : Bool
  rentEpoch : UInt64
deriving DecidableEq, Repr

/-- `Bridge1111111111111111111111111111111111111`, the owner of the accounts of the withdrawal trie. -/
def withdrawalProgramPubkey : Pubkey :=
  .ofNat 0x02c806312cb859f1bc25448e39f87aa09857d83ccb4a837df55648e000000000

structure TrieSolanaAccount where
  lamports : UInt64
  data : B256
  executable : Bool
  rentEpoch : UInt64
  owner : Pubkey
deriving DecidableEq, Repr

def toBeBytes (n : UInt64) : List UInt8 := (List.range 8).map fun i => UInt8.ofNat (n.toNat / 256 ^ (7 - i))

theorem toBeBytes_injective {n m : UInt64} (same : toBeBytes n = toBeBytes m) : n = m := by
  have bytes : ∀ i < 8, n.toNat / 256 ^ (7 - i) % 256 = m.toNat / 256 ^ (7 - i) % 256 := by
    intro i bound
    have here := congrArg (fun bytes => (bytes[i]?).map UInt8.toNat) same
    simpa [toBeBytes, bound] using here
  have lower := n.toNat_lt
  have lower' := m.toNat_lt
  apply UInt64.toNat_inj.mp
  have b0 := bytes 0 (by omega)
  have b1 := bytes 1 (by omega)
  have b2 := bytes 2 (by omega)
  have b3 := bytes 3 (by omega)
  have b4 := bytes 4 (by omega)
  have b5 := bytes 5 (by omega)
  have b6 := bytes 6 (by omega)
  have b7 := bytes 7 (by omega)
  norm_num at b0 b1 b2 b3 b4 b5 b6 b7
  omega

theorem length_toBeBytes (n : UInt64) : (toBeBytes n).length = 8 := by simp [toBeBytes]

def Mpt.B256.toBytes (hash : B256) : Bytes := ⟨hash.1, by rw [hash.2]; norm_num⟩

variable (prim : Primitives)

def accountFromSolanaNative (account : Account) : TrieSolanaAccount where
  lamports := account.lamports
  data := prim.keccak256 account.data.1
  owner := account.owner
  executable := account.executable
  rentEpoch := account.rentEpoch

/-- The hasher is fed in two pieces when the data does not fit the buffer, which leaves the digest of
their concatenation. -/
def solAccountEncoder (account : TrieSolanaAccount) : Bytes :=
  if account.lamports = 0 then (B256.ofNat 0).toBytes
  else
    let flag : UInt8 := if account.executable then 1 else 0
    (prim.keccak256 (toBeBytes account.lamports ++ toBeBytes account.rentEpoch ++ account.data.1 ++ [flag] ++
      account.owner.1)).toBytes

def withdrawalAccountEncoder (account : TrieSolanaAccount) : Bytes := account.data.toBytes

end KonaSoon
