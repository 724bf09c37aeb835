import KonaSoon.Programs.BridgeInstruction

/-!
# Addresses derived from the bridge program

The seeds of `bridge-program/src/pda.rs`. A library derives an address from the concatenation of the seeds, so
that two kinds of address are apart if no concatenation is of both kinds.
-/

namespace KonaSoon.Programs
open Lib Mpt

inductive Pda where
  | vault
  | config
  | bridgeOwner
  | splTokenOwner (remoteToken : Address)
  | splTokenMint (remoteToken : Address)
  | userWithdrawalCounter (userKey : Pubkey)
  | withdrawalTransaction (userKey : Pubkey) (counter : UInt64)
deriving DecidableEq, Repr

namespace Pda

def vaultSeed : List UInt8 := "vault".toUTF8.data.toList

def userWithdrawalCounterSeed : List UInt8 := "svm-withdraw-counter".toUTF8.data.toList

def bridgeConfigSeed : List UInt8 := "bridge-config".toUTF8.data.toList

def splOwnerSeed : List UInt8 := "spl-owner".toUTF8.data.toList

def splMintSeed : List UInt8 := "spl-mint".toUTF8.data.toList

def bridgeOwnerSeed : List UInt8 := "bridge-owner".toUTF8.data.toList

def seeds : Pda → List (List UInt8)
  | vault => [vaultSeed]
  | config => [bridgeConfigSeed]
  | bridgeOwner => [bridgeOwnerSeed]
  | splTokenOwner remoteToken => [splOwnerSeed, remoteToken.1]
  | splTokenMint remoteToken => [splMintSeed, remoteToken.1]
  | userWithdrawalCounter userKey => [userWithdrawalCounterSeed, userKey.1]
  | withdrawalTransaction userKey counter => [userKey.1, packU64 counter]

def pubkey (findProgramAddress : FindProgramAddress) (pda : Pda) : Pubkey :=
  findProgramAddress pda.seeds withdrawalProgramPubkey

def width : Pda → Nat
  | vault => 5
  | config => 13
  | bridgeOwner => 12
  | splTokenOwner _ => 29
  | splTokenMint _ => 28
  | userWithdrawalCounter _ => 52
  | withdrawalTransaction _ _ => 40

theorem length_flatten_pair (first second : List UInt8) :
    [first, second].flatten.length = first.length + second.length := by
  rw [List.flatten_cons, List.flatten_cons, List.flatten_nil, List.append_nil, List.length_append]

theorem length_seeds (pda : Pda) : pda.seeds.flatten.length = pda.width := by
  cases pda with
  | vault => rfl
  | config => rfl
  | bridgeOwner => rfl
  | splTokenOwner remoteToken =>
      rw [seeds, length_flatten_pair, remoteToken.2]
      rfl
  | splTokenMint remoteToken =>
      rw [seeds, length_flatten_pair, remoteToken.2]
      rfl
  | userWithdrawalCounter userKey =>
      rw [seeds, length_flatten_pair, userKey.2]
      rfl
  | withdrawalTransaction userKey counter => rw [seeds, length_flatten_pair, userKey.2, packU64, length_toLeBytes, width]

theorem packU64_injective : Function.Injective packU64 := by
  intro value value' same
  have read := unpackU64_packU64_append value []
  rw [same, unpackU64_packU64_append] at read
  exact (congrArg Prod.fst (Option.some.inj read)).symm

theorem flatten_pair_inj {first first' second second' : List UInt8} (same : [first, second].flatten = [first', second'].flatten)
    (length : first.length = first'.length) : first = first' ∧ second = second' := by
  simp only [List.flatten_cons, List.flatten_nil, List.append_nil] at same
  exact List.append_inj same length

theorem flatten_seeds_injective : Function.Injective fun pda : Pda => pda.seeds.flatten := by
  intro pda pda' same
  have widths : pda.width = pda'.width := by
    rw [← length_seeds, ← length_seeds]
    exact congrArg List.length same
  -- Addresses of different kinds have seeds of different widths.
  cases pda with
  | vault =>
      cases pda' with
      | vault => rfl
      | _ => simp [width] at widths
  | config =>
      cases pda' with
      | config => rfl
      | _ => simp [width] at widths
  | bridgeOwner =>
      cases pda' with
      | bridgeOwner => rfl
      | _ => simp [width] at widths
  | splTokenOwner remoteToken =>
      cases pda' with
      | splTokenOwner remoteToken' => rw [Subtype.ext (flatten_pair_inj same rfl).2]
      | _ => simp [width] at widths
  | splTokenMint remoteToken =>
      cases pda' with
      | splTokenMint remoteToken' => rw [Subtype.ext (flatten_pair_inj same rfl).2]
      | _ => simp [width] at widths
  | userWithdrawalCounter userKey =>
      cases pda' with
      | userWithdrawalCounter userKey' => rw [Subtype.ext (flatten_pair_inj same rfl).2]
      | _ => simp [width] at widths
  | withdrawalTransaction userKey counter =>
      cases pda' with
      | withdrawalTransaction userKey' counter' =>
          obtain ⟨users, counters⟩ := flatten_pair_inj same (by rw [userKey.2, userKey'.2])
          rw [Subtype.ext users, packU64_injective counters]
      | _ => simp [width] at widths

end Pda

end KonaSoon.Programs
