import KonaSoon.Lib.Bytes
import KonaSoon.Primitives.Account

namespace KonaSoon.Programs
open Lib Mpt

structure AccountMeta where
  pubkey : Pubkey
  isSigner : Bool
  isWritable : Bool
deriving DecidableEq, Repr

namespace AccountMeta

def new (pubkey : Pubkey) (isSigner : Bool) : AccountMeta := ⟨pubkey, isSigner, true⟩

def newReadonly (pubkey : Pubkey) (isSigner : Bool) : AccountMeta := ⟨pubkey, isSigner, false⟩

end AccountMeta

structure Instruction where
  programId : Pubkey
  accounts : List AccountMeta
  data : List UInt8
deriving DecidableEq, Repr

abbrev FindProgramAddress := List (List UInt8) → Pubkey → Pubkey

/-- `NoSigTxPayer1111111111111111111111111111111`. -/
def noSigTxPayer : Pubkey := .ofNat 0x0595b5f2f080276894d0537d206a95b1501a9a7b25b510b6931c94ab80000000

/-- `11111111111111111111111111111111`. -/
def systemProgramId : Pubkey := .ofNat 0

/-- `TokenkegQfeZyiNwAJbNbGKPFXCWuBvf9Ss623VQ5DA`. -/
def splTokenId : Pubkey := .ofNat 0x06ddf6e1d765a193d9cbe146ceeb79ac1cb485ed5f5b37913a8cf5857eff00a9

/-- `ATokenGPvbdGVxr1b2hvZbsiqW5xWH25efTNsLJA8knL`. -/
def splAssociatedTokenAccountId : Pubkey := .ofNat 0x8c97258f4e2489f1bb3d1029148e0d830b5a1399daff1084048e7bd8dbe9f859

def getAssociatedTokenAddress (findProgramAddress : FindProgramAddress) (wallet mint : Pubkey) : Pubkey :=
  findProgramAddress [wallet.1, splTokenId.1, mint.1] splAssociatedTokenAccountId

def unpackAddress (input : List UInt8) : Option (Address × List UInt8) := takeFixed 20 input

def unpackPubkey (input : List UInt8) : Option (Pubkey × List UInt8) := takeFixed 32 input

def unpackBytes32 (input : List UInt8) : Option (B256 × List UInt8) := takeFixed 32 input

def unpackU128 (input : List UInt8) : Option (BitVec 128 × List UInt8) :=
  (takeFixed 16 input).map fun (bytes, rest) => (.ofNat 128 (fromLeBytes bytes.1), rest)

def unpackU64 (input : List UInt8) : Option (UInt64 × List UInt8) :=
  (takeFixed 8 input).map fun (bytes, rest) => (.ofNat (fromLeBytes bytes.1), rest)

def unpackU8 : List UInt8 → Option (UInt8 × List UInt8)
  | [] => none
  | value :: rest => some (value, rest)

def unpackBool : List UInt8 → Option (Bool × List UInt8)
  | [] => none
  | value :: rest => if value = 0 then some (false, rest) else if value = 1 then some (true, rest) else none

def unpackStr : List UInt8 → Option (String × List UInt8)
  | [] => none
  | length :: rest =>
      if rest.length < length.toNat then none
      else (String.fromUTF8? ⟨(rest.take length.toNat).toArray⟩).map fun text => (text, rest.drop length.toNat)

def packU128 (value : BitVec 128) : List UInt8 := toLeBytes 16 value.toNat

def packU64 (value : UInt64) : List UInt8 := toLeBytes 8 value.toNat

def packBool (value : Bool) : List UInt8 := [if value then 1 else 0]

def packStr (text : String) : Option (List UInt8) :=
  let bytes := text.toUTF8.data.toList
  if bytes.length ≤ 255 then some (.ofNat bytes.length :: bytes) else none

@[simp] theorem unpackAddress_append (address : Address) (rest : List UInt8) :
    unpackAddress (address.1 ++ rest) = some (address, rest) := takeFixed_append address rest

@[simp] theorem unpackPubkey_append (pubkey : Pubkey) (rest : List UInt8) :
    unpackPubkey (pubkey.1 ++ rest) = some (pubkey, rest) := takeFixed_append pubkey rest

@[simp] theorem unpackBytes32_append (bytes : B256) (rest : List UInt8) :
    unpackBytes32 (bytes.1 ++ rest) = some (bytes, rest) := takeFixed_append bytes rest

@[simp] theorem unpackU128_packU128_append (value : BitVec 128) (rest : List UInt8) :
    unpackU128 (packU128 value ++ rest) = some (value, rest) := by
  have read : BitVec.ofNat 128 (fromLeBytes (toLeBytes 16 value.toNat)) = value := by
    rw [fromLeBytes_toLeBytes, show (256 : Nat) ^ 16 = 2 ^ 128 by rfl, Nat.mod_eq_of_lt value.isLt, BitVec.ofNat_toNat,
      BitVec.setWidth_eq]
  simp [unpackU128, packU128, takeFixed_toLeBytes, read]

@[simp] theorem unpackU64_packU64_append (value : UInt64) (rest : List UInt8) :
    unpackU64 (packU64 value ++ rest) = some (value, rest) := by
  have read : UInt64.ofNat (fromLeBytes (toLeBytes 8 value.toNat)) = value := by
    rw [fromLeBytes_toLeBytes, show (256 : Nat) ^ 8 = 2 ^ 64 by rfl, Nat.mod_eq_of_lt value.toNat_lt, UInt64.ofNat_toNat]
  simp [unpackU64, packU64, takeFixed_toLeBytes, read]

@[simp] theorem unpackU8_cons (value : UInt8) (rest : List UInt8) :
    unpackU8 (value :: rest) = some (value, rest) := rfl

@[simp] theorem unpackBool_packBool_append (value : Bool) (rest : List UInt8) :
    unpackBool (packBool value ++ rest) = some (value, rest) := by
  cases value <;> rfl

theorem fromUTF8?_toUTF8 (text : String) : String.fromUTF8? ⟨text.toUTF8.data.toList.toArray⟩ = some text := by
  rw [Array.toArray_toList, String.fromUTF8?]
  exact dif_pos text.isValidUTF8

theorem unpackStr_packStr_append {text : String} {bytes : List UInt8} (packs : packStr text = some bytes)
    (rest : List UInt8) : unpackStr (bytes ++ rest) = some (text, rest) := by
  simp only [packStr] at packs
  split at packs
  · rename_i short
    cases packs
    have length : (UInt8.ofNat text.toUTF8.data.toList.length).toNat = text.toUTF8.data.toList.length :=
      UInt8.toNat_ofNat_of_lt' (Nat.lt_succ_of_le short)
    rw [List.cons_append, unpackStr, length, if_neg (by simp), List.take_left, List.drop_left, fromUTF8?_toUTF8]
    rfl
  · cases packs

theorem packStr_eq_none_iff (text : String) : packStr text = none ↔ 255 < text.utf8ByteSize := by
  have size : text.toUTF8.data.toList.length = text.utf8ByteSize := rfl
  simp only [packStr, size]
  split
  · rename_i short
    exact iff_of_false (Option.some_ne_none _) (Nat.not_lt.mpr short)
  · rename_i long
    exact iff_of_true rfl (Nat.not_le.mp long)

end KonaSoon.Programs
